import AbacMiddleLayer.Corpus.ReferenceFiles
import AbacMiddleLayer.Tsv

/-! # The policy files of the four engines at every scale

What `generate_middle_layer`, `generate_authzforce`, `generate_sunxacml` and `generate_casbin_cpp`
write for a number of decoys, and the policies that are read from the XML files. The generator works
on texts alone; whatever its random numbers are, the policies in its files are the scaled ones.
-/
namespace AbacMiddleLayer.Corpus
open Xacml Xml Context Tsv

/-- A source of random numbers that always gives the least one. -/
def leastSource : RandomSource Unit where
  ofSeed _ := ()
  randbelow _ _ := (0, ())
  randbelow_lt h _ := h

section Files
variable {σ : Type} (R : RandomSource σ)

/-- The file of the Middle Layer in a tier with so many decoys; `Policy.xml` of AuthzForce is written
in the same way. -/
def middleLayerPolicyXml (numDecoys : ℕ) : Option Text :=
  injectBeforeClosingPolicy courseScoreXml3 (xacml3DecoyRulesXml (generateDecoySpecs R numDecoys))

def authzForcePolicyXml (numDecoys : ℕ) : Option Text :=
  injectBeforeClosingPolicy courseScoreXml3 (xacml3DecoyRulesXml (generateDecoySpecs R numDecoys))

def sunXacmlPolicyXml (numDecoys : ℕ) : Option Text :=
  injectBeforeClosingPolicy courseScoreXml2 (xacml2DecoyRulesXml (generateDecoySpecs R numDecoys))

/-- A line of `policy.csv`. -/
def policyLine (row : PolicyRow) : Text :=
  join ',' [['p'], ' ' :: row.sub.toList, ' ' :: row.obj.toList, ' ' :: row.act.toList]

def casbinPolicyCsv (numDecoys : ℕ) : Text :=
  unlines [policyLine baseRow] ++
    unlines ((generateDecoySpecs R numDecoys).mapIdx fun i spec => policyLine (casbinDecoyRow i spec))

end Files

section Files
variable {σ : Type} (R : RandomSource σ)

theorem casbinPolicyCsv_eq (n : ℕ) :
    casbinPolicyCsv R n =
      unlines ((baseRow :: casbinDecoyRows (generateDecoySpecs R n)).map policyLine) := by
  rw [casbinPolicyCsv, casbinDecoyRows, List.map_cons, List.mapIdx_eq_zipIdx_map,
    List.mapIdx_eq_zipIdx_map, List.map_map]
  exact List.flatMap_append.symm

theorem readPolicy_middleLayerPolicyXml (n : ℕ) :
    (middleLayerPolicyXml R n).bind (version3 vocabulary).readPolicy =
      some ⟨permitOverrides3Urn, scaledPolicy3 (generateDecoySpecs R n)⟩ :=
  readPolicy_inject3 (generateDecoySpecs_readAs R n)

theorem readPolicy_sunXacmlPolicyXml (n : ℕ) :
    (sunXacmlPolicyXml R n).bind (version2 vocabulary).readPolicy =
      some ⟨permitOverrides2Urn, scaledPolicy2 (generateDecoySpecs R n)⟩ :=
  readPolicy_inject2 (generateDecoySpecs_readAs R n)

/-- At every scale the files of the three XACML engines hold the scaled policies. -/
theorem generated_policies_read (n : ℕ) :
    ∃ doc₃ doc₂, middleLayerPolicyXml R n = some doc₃ ∧ authzForcePolicyXml R n = some doc₃ ∧
      sunXacmlPolicyXml R n = some doc₂ ∧
      (version3 vocabulary).readPolicy doc₃ =
        some ⟨permitOverrides3Urn, scaledPolicy3 (generateDecoySpecs R n)⟩ ∧
      (version2 vocabulary).readPolicy doc₂ =
        some ⟨permitOverrides2Urn, scaledPolicy2 (generateDecoySpecs R n)⟩ := by
  obtain ⟨doc₃, hdoc₃, hread₃⟩ := Option.bind_eq_some_iff.mp (readPolicy_middleLayerPolicyXml R n)
  obtain ⟨doc₂, hdoc₂, hread₂⟩ := Option.bind_eq_some_iff.mp (readPolicy_sunXacmlPolicyXml R n)
  exact ⟨doc₃, doc₂, hdoc₃, hdoc₃, hdoc₂, hread₃, hread₂⟩

theorem flatten_mapIdx_of_prefix {α : Type} {l l' : List α} (h : l <+: l') (f : ℕ → α → Text) :
    ∃ more, (l'.mapIdx f).flatten = (l.mapIdx f).flatten ++ more := by
  obtain ⟨rest, rfl⟩ := h
  rw [List.mapIdx_append, List.flatten_append]
  exact ⟨_, rfl⟩

theorem closingLine_eq : "</Policy>\n".toList = stopTag "Policy".toList ++ ['\n'] := by
  rw [stopTag]
  repeat rw [String.toList_ofList]
  rfl

/-- The files of a tier are the files of a larger one without the last decoys. -/
theorem smaller_tier_within {m n : ℕ} (h : m ≤ n) :
    (∃ front more, middleLayerPolicyXml R m = some (front ++ "</Policy>\n".toList) ∧
      middleLayerPolicyXml R n = some (front ++ (more ++ "</Policy>\n".toList))) ∧
    (∃ front more, sunXacmlPolicyXml R m = some (front ++ "</Policy>\n".toList) ∧
      sunXacmlPolicyXml R n = some (front ++ (more ++ "</Policy>\n".toList))) ∧
    casbinPolicyCsv R m <+: casbinPolicyCsv R n := by
  have hspace : ∀ c ∈ ['\n'], isSpace c = true := List.forall_mem_singleton.mpr rfl
  have hprefix := generateDecoySpecs_prefix R h
  -- the decoys of the smaller tier go with what is in front of the place where they are pasted
  have hpasted (head : Text) (xml : ℕ → DecoySpec → Text) :
      ∃ front more,
        injectBeforeClosingPolicy (head ++ (stopTag "Policy".toList ++ ['\n']))
          ((generateDecoySpecs R m).mapIdx xml).flatten =
            some (front ++ (stopTag "Policy".toList ++ ['\n'])) ∧
        injectBeforeClosingPolicy (head ++ (stopTag "Policy".toList ++ ['\n']))
          ((generateDecoySpecs R n).mapIdx xml).flatten =
            some (front ++ (more ++ (stopTag "Policy".toList ++ ['\n']))) := by
    obtain ⟨more, hmore⟩ := flatten_mapIdx_of_prefix hprefix xml
    refine ⟨head ++ ((generateDecoySpecs R m).mapIdx xml).flatten, more, ?_, ?_⟩
    · rw [injectBeforeClosingPolicy_eq hspace, List.append_assoc]
    · rw [injectBeforeClosingPolicy_eq hspace, hmore, List.append_assoc, List.append_assoc]
  rw [closingLine_eq]
  refine ⟨hpasted _ _, hpasted _ _, ?_⟩
  obtain ⟨rest, hrest⟩ := hprefix
  rw [casbinPolicyCsv_eq, casbinPolicyCsv_eq, casbinDecoyRows, casbinDecoyRows, ← hrest,
    List.mapIdx_append, ← List.cons_append, List.map_append, unlines, unlines, List.flatMap_append]
  exact List.prefix_append _ _

/-- Two of the tiers of `SCALE_TIERS`. -/
theorem medium_tier_within_large :
    (∃ front more, middleLayerPolicyXml leastSource 1000 = some (front ++ "</Policy>\n".toList) ∧
      middleLayerPolicyXml leastSource 5000 = some (front ++ (more ++ "</Policy>\n".toList))) ∧
    (∃ front more, sunXacmlPolicyXml leastSource 1000 = some (front ++ "</Policy>\n".toList) ∧
      sunXacmlPolicyXml leastSource 5000 = some (front ++ (more ++ "</Policy>\n".toList))) ∧
    casbinPolicyCsv leastSource 1000 <+: casbinPolicyCsv leastSource 5000 :=
  smaller_tier_within leastSource (by decide)

end Files

end AbacMiddleLayer.Corpus
