import AbacMiddleLayer.Xacml.Combining

/-! # Policy evaluation in both versions

The evaluation of a policy from its target, its rules and a combining algorithm,
and three general facts about permit-overrides policies: rules of effect Deny
behind an unconditional Deny rule change nothing, a rule-by-rule translation
between the versions keeps Permit, and hiding attributes never gains a Permit.
-/
namespace AbacMiddleLayer.Xacml

variable {A T : Type}

def Policy.findings (ev : T → Truth) (m : OnError) (r : Request A) (p : Policy T A) :
    List Finding :=
  p.rules.map fun ρ => (ρ.effect, ρ.applies ev m r)

/-- The policy table for an Indeterminate target. -/
def Decision3.underIndeterminateTarget : Decision3 → Decision3
  | .notApplicable => .notApplicable
  | .permit => .indeterminateP
  | .deny => .indeterminateD
  | .indeterminateD => .indeterminateD
  | .indeterminateP => .indeterminateP
  | .indeterminateDP => .indeterminateDP

/-- A policy of version 3.0. -/
def Policy.eval3 (combine : List Decision3 → Decision3) (m : OnError) (r : Request A)
    (p : Policy (Target A) A) : Decision3 :=
  let combined := combine ((p.findings (Target.eval r) m r).map Finding.decision3)
  match Target.eval r p.target with
  | some true => combined
  | some false => .notApplicable
  | none => combined.underIndeterminateTarget

/-- A policy of version 2.0. -/
def Policy.eval2 (combine : List (Effect × Decision) → Decision) (m : OnError) (r : Request A)
    (p : Policy (Target2 A) A) : Decision :=
  match Target2.eval r p.target with
  | some true => combine ((p.findings (Target2.eval r) m r).map Finding.decision)
  | some false => .notApplicable
  | none => .indeterminate

/-- Rules added behind those that are there. -/
def Policy.append (p : Policy T A) (ρs : List (Rule T A)) : Policy T A :=
  { p with rules := p.rules ++ ρs }

theorem Policy.findings_append (ev : T → Truth) (m : OnError) (r : Request A)
    (p : Policy T A) (ρs : List (Rule T A)) :
    (p.append ρs).findings ev m r =
      p.findings ev m r ++ ρs.map fun ρ => (ρ.effect, ρ.applies ev m r) := by
  simp [Policy.findings, Policy.append]

theorem Decision3.underIndeterminateTarget_ne_permit (d : Decision3) :
    d.underIndeterminateTarget ≠ .permit := by
  cases d <;> simp [Decision3.underIndeterminateTarget]

/-- Some rule of effect Permit applies. -/
def Policy.SomePermitApplies (ev : T → Truth) (m : OnError) (r : Request A)
    (p : Policy T A) : Prop :=
  ∃ ρ ∈ p.rules, ρ.effect = .permit ∧ ρ.applies ev m r = some true

theorem Policy.eval3_eq_permit_iff (m : OnError) (r : Request A) (p : Policy (Target A) A) :
    p.eval3 permitOverrides3 m r = .permit ↔
      Target.eval r p.target = some true ∧ p.SomePermitApplies (Target.eval r) m r := by
  have hmem : .permit ∈ (p.findings (Target.eval r) m r).map Finding.decision3 ↔
      p.SomePermitApplies (Target.eval r) m r := by
    simp [Policy.findings, Finding.decision3, Policy.SomePermitApplies]
  unfold Policy.eval3
  rcases Target.eval r p.target with _ | (_ | _)
  · simp [Decision3.underIndeterminateTarget_ne_permit]
  · simp
  · simp [permitOverrides3_eq_permit_iff, hmem]

theorem Policy.eval2_eq_permit_iff (m : OnError) (r : Request A) (p : Policy (Target2 A) A) :
    p.eval2 permitOverrides m r = .permit ↔
      Target2.eval r p.target = some true ∧ p.SomePermitApplies (Target2.eval r) m r := by
  have hmem : .permit ∈ ((p.findings (Target2.eval r) m r).map Finding.decision).map Prod.snd ↔
      p.SomePermitApplies (Target2.eval r) m r := by
    simp [Policy.findings, Finding.decision, Policy.SomePermitApplies]
  unfold Policy.eval2
  rcases Target2.eval r p.target with _ | (_ | _)
  · simp
  · simp
  · simp only [permitOverrides_eq_permit_iff, hmem, true_and]

/-- A rule of effect Deny without target and condition. -/
def Policy.HasDefaultDeny (p : Policy T A) : Prop :=
  ∃ ρ ∈ p.rules, ρ.effect = .deny ∧ ρ.target = none ∧ ρ.condition = none

theorem Policy.HasDefaultDeny.finding {p : Policy T A} (h : p.HasDefaultDeny)
    (ev : T → Truth) (m : OnError) (r : Request A) :
    (.deny, some true) ∈ p.findings ev m r := by
  obtain ⟨ρ, hρ, he, ht, hc⟩ := h
  refine List.mem_map.mpr ⟨ρ, hρ, ?_⟩
  simp [Rule.applies, he, ht, hc, conj]

theorem Policy.eval3_append_denying {p : Policy (Target A) A} (hp : p.HasDefaultDeny)
    {ρs : List (Rule (Target A) A)} (hρs : ∀ ρ ∈ ρs, ρ.effect = .deny) (m : OnError)
    (r : Request A) : (p.append ρs).eval3 permitOverrides3 m r = p.eval3 permitOverrides3 m r := by
  unfold Policy.eval3
  rw [Policy.findings_append, List.map_append, permitOverrides3_append_denying]
  · rfl
  · exact List.mem_map.mpr ⟨_, hp.finding (Target.eval r) m r, rfl⟩
  · simp only [List.map_map, List.mem_map, Function.comp_apply, forall_exists_index, and_imp]
    rintro _ ρ hρ rfl
    rw [Finding.decision3, hρs ρ hρ]
    exact ruleDecision3_deny _

theorem Policy.eval2_append_denying {p : Policy (Target2 A) A} (hp : p.HasDefaultDeny)
    {ρs : List (Rule (Target2 A) A)} (hρs : ∀ ρ ∈ ρs, ρ.effect = .deny) (m : OnError)
    (r : Request A) : (p.append ρs).eval2 permitOverrides m r = p.eval2 permitOverrides m r := by
  unfold Policy.eval2
  rw [Policy.findings_append, List.map_append, permitOverrides_append_denying]
  · rfl
  · exact List.mem_map.mpr
      ⟨_, List.mem_map.mpr ⟨_, hp.finding (Target2.eval r) m r, rfl⟩, rfl⟩
  · simp only [List.map_map, List.mem_map, Function.comp_apply, forall_exists_index, and_imp]
    rintro _ ρ hρ rfl
    refine ⟨hρs ρ hρ, ?_⟩
    simp [Finding.decision, hρs ρ hρ]

/-- A target without its presence requirements. -/
def Target.core (t : Target A) : List (List (List (String × A))) :=
  t.map fun as => as.map fun ms => ms.map fun m => (m.value, m.attr)

def Operand.forget {d : DataType} : Operand A d → Operand A d
  | .literal v => .literal v
  | .designator a _ => .designator a false

/-- A condition without its presence requirements. -/
def Condition.forget : Condition A → Condition A
  | .stringEqual x y => .stringEqual x.forget y.forget
  | .integerCompare c x y => .integerCompare c x.forget y.forget
  | .and x y => .and x.forget y.forget
  | .or x y => .or x.forget y.forget

theorem Target.eval_true_of_core (r : Request A) {t u : Target A} (h : t.core = u.core) :
    t.eval r = some true ↔ u.eval r = some true := by
  have hcore (t : Target A) : t.eval r = some true ↔
      ∀ as ∈ t.core, ∃ ms ∈ as, ∀ m ∈ ms, r .string m.2 = some m.1 := by
    simp only [Target.eval_eq_true_iff, Target.core, List.mem_map, forall_exists_index, and_imp,
      forall_apply_eq_imp_iff₂, exists_exists_and_eq_and]
  rw [hcore t, hcore u, h]

@[simp] theorem Operand.eval_forget (r : Request A) {d : DataType} (x : Operand A d) :
    x.forget.eval r = x.eval r := by
  cases x <;> simp [Operand.forget]

/-- `one-and-only` fails on an absent attribute whether or not it must be present. -/
theorem Condition.eval_forget (m : OnError) (r : Request A) (c : Condition A) :
    c.forget.eval m r = c.eval m r := by
  induction c with
  | stringEqual x y => simp [Condition.forget, Condition.eval]
  | integerCompare c x y => simp [Condition.forget, Condition.eval]
  | and x y ihx ihy => simp [Condition.forget, Condition.eval, ihx, ihy]
  | or x y ihx ihy => simp [Condition.forget, Condition.eval, ihx, ihy]

/-- The two rules say the same up to presence requirements. -/
structure Rule.Translates (ρ : Rule (Target A) A) (σ : Rule (Target2 A) A) : Prop where
  effect : ρ.effect = σ.effect
  target : ρ.target.map Target.core = σ.target.map fun t => t.sections.core
  condition : ρ.condition.map Condition.forget = σ.condition.map Condition.forget

theorem Rule.Translates.condition_eval {ρ : Rule (Target A) A} {σ : Rule (Target2 A) A}
    (h : ρ.Translates σ) (m : OnError) (r : Request A) :
    ρ.condition.map (Condition.eval m r) = σ.condition.map (Condition.eval m r) := by
  have hforget (c : Option (Condition A)) :
      (c.map Condition.forget).map (Condition.eval m r) = c.map (Condition.eval m r) := by
    cases c <;> simp [Condition.eval_forget]
  rw [← hforget ρ.condition, h.condition, hforget]

theorem Rule.Translates.applies_true_iff {ρ : Rule (Target A) A} {σ : Rule (Target2 A) A}
    (h : ρ.Translates σ) (m : OnError) (r : Request A) :
    ρ.applies (Target.eval r) m r = some true ↔ σ.applies (Target2.eval r) m r = some true := by
  have ht : (ρ.target.map (Target.eval r)).getD (some true) = some true ↔
      (σ.target.map (Target2.eval r)).getD (some true) = some true := by
    have hcore := h.target
    cases hρ : ρ.target <;> cases hσ : σ.target <;> simp only [hρ, hσ, Option.map_none,
      Option.map_some, Option.some.injEq, reduceCtorEq] at hcore
    · simp
    · simpa [Target2.eval] using Target.eval_true_of_core r hcore
  simp only [Rule.applies, conj_eq_true_iff, ht, h.condition_eval]

/-- The two policies say the same, rule by rule, up to presence requirements. -/
structure Policy.Translates (p : Policy (Target A) A) (q : Policy (Target2 A) A) : Prop where
  target : p.target.core = q.target.sections.core
  rules : List.Forall₂ Rule.Translates p.rules q.rules

theorem Policy.Translates.append {p : Policy (Target A) A} {q : Policy (Target2 A) A}
    (h : p.Translates q) {ρs : List (Rule (Target A) A)} {σs : List (Rule (Target2 A) A)}
    (hs : List.Forall₂ Rule.Translates ρs σs) : (p.append ρs).Translates (q.append σs) :=
  ⟨h.target, List.rel_append h.rules hs⟩

theorem Policy.Translates.somePermitApplies_iff {p : Policy (Target A) A}
    {q : Policy (Target2 A) A} (h : p.Translates q) (m : OnError) (r : Request A) :
    p.SomePermitApplies (Target.eval r) m r ↔ q.SomePermitApplies (Target2.eval r) m r := by
  unfold Policy.SomePermitApplies
  obtain ⟨_, hrules⟩ := h
  generalize p.rules = ρs at hrules ⊢
  generalize q.rules = σs at hrules ⊢
  induction hrules with
  | nil => simp
  | cons hρ _ ih => simp only [List.exists_mem_cons_iff, hρ.effect, hρ.applies_true_iff m r, ih]

/-- A translation permits exactly what the original permits, even where the treatment
of absent attributes makes the two disagree on everything else. -/
theorem Policy.Translates.permit_iff {p : Policy (Target A) A} {q : Policy (Target2 A) A}
    (h : p.Translates q) (m : OnError) (r : Request A) :
    p.eval3 permitOverrides3 m r = .permit ↔ q.eval2 permitOverrides m r = .permit := by
  rw [Policy.eval3_eq_permit_iff, Policy.eval2_eq_permit_iff, h.somePermitApplies_iff,
    Target.eval_true_of_core r h.target]
  rfl

/-- Every attribute that a target or a condition reads satisfies `P`. -/
def Target.Reads (P : (d : DataType) → A → Prop) (t : Target A) : Prop :=
  ∀ as ∈ t, ∀ ms ∈ as, ∀ m ∈ ms, P .string m.attr

def Rule.Reads (sections : T → Target A) (P : (d : DataType) → A → Prop) (ρ : Rule T A) : Prop :=
  (∀ t ∈ ρ.target, (sections t).Reads P) ∧ ∀ c ∈ ρ.condition, c.Reads P

def Policy.Reads (sections : T → Target A) (P : (d : DataType) → A → Prop) (p : Policy T A) : Prop :=
  (sections p.target).Reads P ∧ ∀ ρ ∈ p.rules, ρ.Reads sections P

theorem Policy.Reads.append {sections : T → Target A} {P : (d : DataType) → A → Prop}
    {p : Policy T A} (h : p.Reads sections P) {ρs : List (Rule T A)}
    (hs : ∀ ρ ∈ ρs, ρ.Reads sections P) : (p.append ρs).Reads sections P := by
  refine ⟨h.1, fun ρ hρ => ?_⟩
  rcases List.mem_append.mp hρ with hρ | hρ
  · exact h.2 ρ hρ
  · exact hs ρ hρ

theorem Rule.applies_isSome (sections : T → Target A) {m : OnError} {r : Request A} {ρ : Rule T A}
    (h : ρ.Reads sections fun d a => (r d a).isSome) :
    (ρ.applies (fun t => (sections t).eval r) m r).isSome := by
  apply conj_isSome
  · cases ht : ρ.target with
    | none => rfl
    | some t => exact Target.eval_isSome (h.1 t ht)
  · cases hc : ρ.condition with
    | none => rfl
    | some c => exact Condition.eval_isSome m c (h.2 c hc)

theorem Policy.findings_isSome (sections : T → Target A) (m : OnError) {r : Request A}
    {p : Policy T A} (h : p.Reads sections fun d a => (r d a).isSome) :
    ∀ x ∈ p.findings (fun t => (sections t).eval r) m r, x.2.isSome := by
  intro x hx
  obtain ⟨ρ, hρ, rfl⟩ := List.mem_map.mp hx
  exact Rule.applies_isSome sections (h.2 ρ hρ)

/-- On a request with everything the two policies read, a translation finds the same. -/
theorem Policy.Translates.findings_eq {p : Policy (Target A) A} {q : Policy (Target2 A) A}
    (h : p.Translates q) {m : OnError} {r : Request A}
    (hp : p.Reads id fun d a => (r d a).isSome)
    (hq : q.Reads Target2.sections fun d a => (r d a).isSome) :
    p.findings (Target.eval r) m r = q.findings (Target2.eval r) m r := by
  obtain ⟨_, hp⟩ := hp
  obtain ⟨_, hq⟩ := hq
  obtain ⟨_, hrules⟩ := h
  unfold Policy.findings
  generalize p.rules = ρs at hp hrules ⊢
  generalize q.rules = σs at hq hrules ⊢
  induction hrules with
  | nil => rfl
  | @cons ρ σ ρs σs hρ _ ih =>
    have happ : ρ.applies (Target.eval r) m r = σ.applies (Target2.eval r) m r :=
      truth_eq_of_true_iff (Rule.applies_isSome id (hp ρ (by simp)))
        (Rule.applies_isSome Target2.sections (hq σ (by simp))) (hρ.applies_true_iff m r)
    rw [List.map_cons, List.map_cons, hρ.effect, happ,
      ih (fun τ hτ => hp τ (by simp [hτ])) fun τ hτ => hq τ (by simp [hτ])]

theorem Policy.Translates.report_eq {p : Policy (Target A) A} {q : Policy (Target2 A) A}
    (h : p.Translates q) {m : OnError} {r : Request A}
    (hp : p.Reads id fun d a => (r d a).isSome)
    (hq : q.Reads Target2.sections fun d a => (r d a).isSome) :
    (p.eval3 permitOverrides3 m r).report = q.eval2 permitOverrides m r := by
  have htarget : Target.eval r p.target = Target2.eval r q.target :=
    truth_eq_of_true_iff (Target.eval_isSome hp.1) (Target.eval_isSome hq.1)
      (Target.eval_true_of_core r h.target)
  have hagree := permitOverrides_agree (Policy.findings_isSome Target2.sections m hq)
  obtain ⟨b, hb⟩ := Option.isSome_iff_exists.mp (Target.eval_isSome hp.1)
  change Target.eval r p.target = some b at hb
  unfold Policy.eval3 Policy.eval2
  rw [← htarget, hb, h.findings_eq hp hq]
  cases b with
  | false => rfl
  | true => exact hagree

/-- The request that shows only the attributes in `keep`. -/
def Request.restrict (keep : DataType → A → Bool) (r : Request A) : Request A :=
  fun d a => if keep d a then r d a else none

theorem Request.restrict_below (keep : DataType → A → Bool) (r : Request A) (d : DataType)
    (a : A) : Below (r.restrict keep d a) (r d a) := by
  unfold Request.restrict
  split_ifs
  · exact Below.refl _
  · exact below_none _

section Below
variable {s r : Request A} (h : ∀ d a, Below (s d a) (r d a))
include h

theorem Target.eval_true_mono {t : Target A} (ht : t.eval s = some true) :
    t.eval r = some true := by
  rw [Target.eval_eq_true_iff] at ht ⊢
  intro as has
  obtain ⟨ms, hms, hm⟩ := ht as has
  exact ⟨ms, hms, fun m hmem => h .string m.attr _ (hm m hmem)⟩

theorem Operand.eval_below {d : DataType} (x : Operand A d) : Below (x.eval s) (x.eval r) := by
  cases x with
  | literal v => exact Below.refl _
  | designator a must => simpa using h d a

/-- What a condition says of a request it also says of every request that shows more. -/
theorem Condition.eval_below (m : OnError) (c : Condition A) :
    Below (c.eval m s) (c.eval m r) := by
  induction c with
  | stringEqual x y =>
    refine (x.eval_below h).bind fun u => ?_
    simp only [Option.map_eq_bind]
    exact (y.eval_below h).bind fun v => Below.refl _
  | integerCompare c x y =>
    refine (x.eval_below h).bind fun u => ?_
    simp only [Option.map_eq_bind]
    exact (y.eval_below h).bind fun v => Below.refl _
  | and x y ihx ihy => exact conj_below m ihx ihy
  | or x y ihx ihy => exact disj_below m ihx ihy

theorem Rule.applies_true_mono (sections : T → Target A) {m : OnError} {ρ : Rule T A}
    (hρ : ρ.applies (fun t => (sections t).eval s) m s = some true) :
    ρ.applies (fun t => (sections t).eval r) m r = some true := by
  rw [Rule.applies, conj_eq_true_iff] at hρ ⊢
  obtain ⟨ht, hc⟩ := hρ
  constructor
  · cases htarget : ρ.target with
    | none => rfl
    | some t =>
      simp only [htarget, Option.map_some, Option.getD_some] at ht ⊢
      exact Target.eval_true_mono h ht
  · cases hcond : ρ.condition with
    | none => rfl
    | some c =>
      simp only [hcond, Option.map_some, Option.getD_some] at hc ⊢
      exact Condition.eval_below h m c true hc

theorem Policy.somePermitApplies_mono (sections : T → Target A) {m : OnError} {p : Policy T A}
    (hp : p.SomePermitApplies (fun t => (sections t).eval s) m s) :
    p.SomePermitApplies (fun t => (sections t).eval r) m r := by
  obtain ⟨ρ, hρ, he, ha⟩ := hp
  exact ⟨ρ, hρ, he, Rule.applies_true_mono h sections ha⟩

/-- A permit-overrides policy that permits a request permits every request showing more. -/
theorem Policy.eval3_permit_mono {m : OnError} {p : Policy (Target A) A}
    (hp : p.eval3 permitOverrides3 m s = .permit) : p.eval3 permitOverrides3 m r = .permit := by
  rw [Policy.eval3_eq_permit_iff] at hp ⊢
  exact ⟨Target.eval_true_mono h hp.1, Policy.somePermitApplies_mono h id hp.2⟩

theorem Policy.eval2_permit_mono {m : OnError} {p : Policy (Target2 A) A}
    (hp : p.eval2 permitOverrides m s = .permit) : p.eval2 permitOverrides m r = .permit := by
  rw [Policy.eval2_eq_permit_iff] at hp ⊢
  exact ⟨Target.eval_true_mono h hp.1,
    Policy.somePermitApplies_mono h Target2.sections hp.2⟩

end Below

end AbacMiddleLayer.Xacml
