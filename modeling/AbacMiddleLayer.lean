import AbacMiddleLayer.Corpus.Adapters
import AbacMiddleLayer.Corpus.Agreement
import AbacMiddleLayer.Corpus.ScenarioTable
import AbacMiddleLayer.Gate.Buffers
import AbacMiddleLayer.Gate.FailClosed
import AbacMiddleLayer.Gate.Identifiers
import AbacMiddleLayer.Gate.Protocol
import AbacMiddleLayer.Harness.Correctness
import AbacMiddleLayer.Harness.Latency
import AbacMiddleLayer.Harness.Manifest
import AbacMiddleLayer.Harness.ResultLines
import AbacMiddleLayer.Json.Lines
import AbacMiddleLayer.MiddleLayer.CanonicalDecision
import AbacMiddleLayer.MiddleLayer.ResponseDecoding
import AbacMiddleLayer.Harness.Benchmark
import AbacMiddleLayer.Harness.WorkerFiles
import AbacMiddleLayer.Json.Dumps
import AbacMiddleLayer.Harness.AuthzForceRecords
import AbacMiddleLayer.Harness.PublishedTable
import AbacMiddleLayer.Xml.Comments
import AbacMiddleLayer.Xml.Elements
import AbacMiddleLayer.Xml.Insertion
import AbacMiddleLayer.Xacml.PolicyDocument
import AbacMiddleLayer.Xacml.PolicyLines
import AbacMiddleLayer.Corpus.DecoySpecs
import AbacMiddleLayer.Corpus.PolicyFiles
import AbacMiddleLayer.Corpus.ReferenceFiles
import AbacMiddleLayer.Corpus.GeneratedCorpus
import AbacMiddleLayer.Harness.ManifestAgreement
import AbacMiddleLayer.Xml.Refusal
import AbacMiddleLayer.Corpus.PastedPolicies
