import AbacMiddleLayer.Xacml.Policy

/-! # Combining algorithms

First-applicable returns the first decision that there is. The rest of the module is about the
two permit-overrides algorithms.

Version 3.0 keeps three kinds of Indeterminate apart, version 1.0 only remembers
whether a Permit was possible. Both algorithms scan the rules once, return Permit
at the first Permit and otherwise decide from the flags they have raised. The
specification of each is that scan in closed form; what later rules can change
follows from what a single rule does to the flags.
-/
namespace AbacMiddleLayer.Xacml

inductive Decision where
  | permit
  | deny
  | notApplicable
  | indeterminate
deriving DecidableEq, Repr

/-- A decision of version 3.0, with the extended Indeterminate values. -/
inductive Decision3 where
  | permit
  | deny
  | notApplicable
  | indeterminateD
  | indeterminateP
  | indeterminateDP
deriving DecidableEq, Repr

/-- The decision that a response reports. -/
def Decision3.report : Decision3 → Decision
  | .permit => .permit
  | .deny => .deny
  | .notApplicable => .notApplicable
  | .indeterminateD => .indeterminate
  | .indeterminateP => .indeterminate
  | .indeterminateDP => .indeterminate

def ruleDecision3 : Effect → Truth → Decision3
  | .permit, some true => .permit
  | .deny, some true => .deny
  | _, some false => .notApplicable
  | .permit, none => .indeterminateP
  | .deny, none => .indeterminateD

def ruleDecision : Effect → Truth → Decision
  | .permit, some true => .permit
  | .deny, some true => .deny
  | _, some false => .notApplicable
  | _, none => .indeterminate

@[simp] theorem ruleDecision3_eq_permit_iff (e : Effect) (t : Truth) :
    ruleDecision3 e t = .permit ↔ e = .permit ∧ t = some true := by
  cases e <;> rcases t with _ | (_ | _) <;> simp [ruleDecision3]

@[simp] theorem ruleDecision_eq_permit_iff (e : Effect) (t : Truth) :
    ruleDecision e t = .permit ↔ e = .permit ∧ t = some true := by
  cases e <;> rcases t with _ | (_ | _) <;> simp [ruleDecision]

/-- The first rule that is not NotApplicable decides, an Indeterminate one as well. -/
def firstApplicable : List Decision3 → Decision3
  | [] => .notApplicable
  | d :: ds => if d = .notApplicable then firstApplicable ds else d

structure Flags3 where
  errorD : Bool := false
  errorP : Bool := false
  errorDP : Bool := false
  deny : Bool := false
deriving DecidableEq, Repr

def Flags3.note (f : Flags3) : Decision3 → Flags3
  | .deny => { f with deny := true }
  | .indeterminateD => { f with errorD := true }
  | .indeterminateP => { f with errorP := true }
  | .indeterminateDP => { f with errorDP := true }
  | .notApplicable => f
  | .permit => f

def Flags3.result (f : Flags3) : Decision3 :=
  if f.errorDP then .indeterminateDP
  else if f.errorP && (f.errorD || f.deny) then .indeterminateDP
  else if f.errorP then .indeterminateP
  else if f.deny then .deny
  else if f.errorD then .indeterminateD
  else .notApplicable

def permitOverrides3Loop : Flags3 → List Decision3 → Decision3
  | f, [] => f.result
  | f, d :: ds => if d = .permit then .permit else permitOverrides3Loop (f.note d) ds

def permitOverrides3 (ds : List Decision3) : Decision3 := permitOverrides3Loop {} ds

theorem Flags3.result_ne_permit (f : Flags3) : f.result ≠ .permit := by
  unfold Flags3.result
  split_ifs <;> simp

theorem permitOverrides3Loop_spec (f : Flags3) (ds : List Decision3) :
    permitOverrides3Loop f ds =
      if .permit ∈ ds then .permit else (ds.foldl Flags3.note f).result := by
  induction ds generalizing f with
  | nil => simp [permitOverrides3Loop]
  | cons d ds ih =>
    by_cases hd : d = .permit
    · simp [permitOverrides3Loop, hd]
    · simp only [permitOverrides3Loop, hd, if_false, ih, List.mem_cons, List.foldl_cons,
        eq_comm (a := Decision3.permit), false_or]

/-- Permit overrides: the result is Permit exactly when some rule permits. -/
theorem permitOverrides3_eq_permit_iff (ds : List Decision3) :
    permitOverrides3 ds = .permit ↔ .permit ∈ ds := by
  rw [permitOverrides3, permitOverrides3Loop_spec]
  split_ifs with h
  · simp [h]
  · simp [h, Flags3.result_ne_permit]

/-- What a rule with the effect Deny can come out as. -/
def Decision3.Denying (d : Decision3) : Prop := d = .deny ∨ d = .notApplicable ∨ d = .indeterminateD

theorem ruleDecision3_deny (t : Truth) : (ruleDecision3 .deny t).Denying := by
  rcases t with _ | (_ | _) <;> simp [ruleDecision3, Decision3.Denying]

/-- Once a Deny has been seen, a denying rule changes neither that nor the result. -/
theorem Flags3.note_denying {f : Flags3} (hf : f.deny = true) {d : Decision3} (hd : d.Denying) :
    (f.note d).deny = true ∧ (f.note d).result = f.result := by
  rcases hd with rfl | rfl | rfl
  · simp [Flags3.note, Flags3.result, hf]
  · exact ⟨hf, rfl⟩
  · simp [Flags3.note, Flags3.result, hf]

theorem Flags3.foldl_denying {f : Flags3} (hf : f.deny = true) {ds : List Decision3}
    (hds : ∀ d ∈ ds, d.Denying) : (ds.foldl Flags3.note f).result = f.result := by
  induction ds generalizing f with
  | nil => rfl
  | cons d ds ih =>
    obtain ⟨hdeny, hresult⟩ := Flags3.note_denying hf (hds d (by simp))
    rw [List.foldl_cons, ih hdeny fun e he => hds e (by simp [he]), hresult]

theorem Flags3.deny_of_mem {f : Flags3} {ds : List Decision3} (h : f.deny = true ∨ .deny ∈ ds) :
    (ds.foldl Flags3.note f).deny = true := by
  induction ds generalizing f with
  | nil => simpa using h
  | cons d ds ih =>
    apply ih
    rcases h with h | h
    · left
      cases d <;> simp [Flags3.note, h]
    · rcases List.mem_cons.mp h with rfl | h
      · exact .inl rfl
      · exact .inr h

theorem Decision3.Denying.ne_permit {d : Decision3} (h : d.Denying) : d ≠ .permit := by
  rintro rfl
  simp [Decision3.Denying] at h

/-- After a Deny, no list of denying rules changes the decision, whatever preceded. -/
theorem permitOverrides3_append_denying {ds es : List Decision3} (hdeny : .deny ∈ ds)
    (hes : ∀ e ∈ es, e.Denying) : permitOverrides3 (ds ++ es) = permitOverrides3 ds := by
  have hnot : Decision3.permit ∉ es := fun h => (hes _ h).ne_permit rfl
  simp only [permitOverrides3, permitOverrides3Loop_spec, List.mem_append, hnot, or_false,
    List.foldl_append]
  rw [Flags3.foldl_denying (Flags3.deny_of_mem (.inr hdeny)) hes]

structure Flags where
  error : Bool := false
  potentialPermit : Bool := false
  deny : Bool := false
deriving DecidableEq, Repr

/-- The algorithm looks at the effect of a rule only when the rule is Indeterminate. -/
def Flags.note (f : Flags) : Effect × Decision → Flags
  | (_, .deny) => { f with deny := true }
  | (.permit, .indeterminate) => { f with error := true, potentialPermit := true }
  | (.deny, .indeterminate) => { f with error := true }
  | (_, .notApplicable) => f
  | (_, .permit) => f

def Flags.result (f : Flags) : Decision :=
  if f.potentialPermit then .indeterminate
  else if f.deny then .deny
  else if f.error then .indeterminate
  else .notApplicable

def permitOverridesLoop : Flags → List (Effect × Decision) → Decision
  | f, [] => f.result
  | f, d :: ds => if d.2 = .permit then .permit else permitOverridesLoop (f.note d) ds

def permitOverrides (ds : List (Effect × Decision)) : Decision := permitOverridesLoop {} ds

theorem Flags.result_ne_permit (f : Flags) : f.result ≠ .permit := by
  unfold Flags.result
  split_ifs <;> simp

theorem permitOverridesLoop_spec (f : Flags) (ds : List (Effect × Decision)) :
    permitOverridesLoop f ds =
      if .permit ∈ ds.map Prod.snd then .permit else (ds.foldl Flags.note f).result := by
  induction ds generalizing f with
  | nil => simp [permitOverridesLoop]
  | cons d ds ih =>
    by_cases hd : d.2 = .permit
    · simp [permitOverridesLoop, hd]
    · simp only [permitOverridesLoop, hd, if_false, ih, List.map_cons, List.mem_cons,
        List.foldl_cons, eq_comm (a := Decision.permit), false_or]

theorem permitOverrides_eq_permit_iff (ds : List (Effect × Decision)) :
    permitOverrides ds = .permit ↔ .permit ∈ ds.map Prod.snd := by
  rw [permitOverrides, permitOverridesLoop_spec]
  split_ifs with h
  · simp [h]
  · simp [h, Flags.result_ne_permit]

/-- What a rule with the effect Deny contributes. -/
def Denying (d : Effect × Decision) : Prop := d.1 = .deny ∧ d.2 ≠ .permit

theorem Flags.note_denying {f : Flags} (hf : f.deny = true) {d : Effect × Decision}
    (hd : Denying d) : (f.note d).deny = true ∧ (f.note d).result = f.result := by
  obtain ⟨e, d⟩ := d
  obtain ⟨rfl, hp⟩ : e = .deny ∧ d ≠ .permit := hd
  cases d <;> simp_all [Flags.note, Flags.result]

theorem Flags.foldl_denying {f : Flags} (hf : f.deny = true) {ds : List (Effect × Decision)}
    (hds : ∀ d ∈ ds, Denying d) : (ds.foldl Flags.note f).result = f.result := by
  induction ds generalizing f with
  | nil => rfl
  | cons d ds ih =>
    obtain ⟨hdeny, hresult⟩ := Flags.note_denying hf (hds d (by simp))
    rw [List.foldl_cons, ih hdeny fun e he => hds e (by simp [he]), hresult]

theorem Flags.deny_of_mem {f : Flags} {ds : List (Effect × Decision)}
    (h : f.deny = true ∨ .deny ∈ ds.map Prod.snd) : (ds.foldl Flags.note f).deny = true := by
  induction ds generalizing f with
  | nil => simpa using h
  | cons d ds ih =>
    obtain ⟨e, d⟩ := d
    apply ih
    rcases h with h | h
    · left
      cases d <;> cases e <;> simp [Flags.note, h]
    · rcases List.mem_cons.mp h with rfl | h
      · exact .inl rfl
      · exact .inr h

theorem permitOverrides_append_denying {ds es : List (Effect × Decision)}
    (hdeny : .deny ∈ ds.map Prod.snd) (hes : ∀ e ∈ es, Denying e) :
    permitOverrides (ds ++ es) = permitOverrides ds := by
  have hnot : Decision.permit ∉ es.map Prod.snd := by
    intro h
    obtain ⟨e, he, hp⟩ := List.mem_map.mp h
    exact (hes e he).2 hp
  simp only [permitOverrides, permitOverridesLoop_spec, List.map_append, List.mem_append, hnot,
    or_false, List.foldl_append]
  rw [Flags.foldl_denying (Flags.deny_of_mem (.inr hdeny)) hes]

/-- The outcome of a rule before either version has named it. -/
abbrev Finding := Effect × Truth

def Finding.decision3 (x : Finding) : Decision3 := ruleDecision3 x.1 x.2

def Finding.decision (x : Finding) : Effect × Decision := (x.1, ruleDecision x.1 x.2)

/-- While no rule is Indeterminate, the flags of both versions agree. -/
def Flags3.Agrees (f : Flags3) (g : Flags) : Prop :=
  f.errorD = false ∧ f.errorP = false ∧ f.errorDP = false ∧ g.error = false ∧
    g.potentialPermit = false ∧ f.deny = g.deny

theorem Flags3.Agrees.result {f : Flags3} {g : Flags} (h : f.Agrees g) :
    f.result.report = g.result := by
  obtain ⟨h1, h2, h3, h4, h5, h6⟩ := h
  cases hd : g.deny <;> simp [Flags3.result, Flags.result, Decision3.report, h1, h2, h3, h4, h5, h6, hd]

theorem permitOverrides_report {f : Flags3} {g : Flags} (hfg : f.Agrees g) {xs : List Finding}
    (h : ∀ x ∈ xs, x.2.isSome) :
    (permitOverrides3Loop f (xs.map Finding.decision3)).report =
      permitOverridesLoop g (xs.map Finding.decision) := by
  induction xs generalizing f g with
  | nil => exact hfg.result
  | cons x xs ih =>
    obtain ⟨e, t⟩ := x
    obtain ⟨b, rfl⟩ : ∃ b, t = some b := Option.isSome_iff_exists.mp (h (e, t) (by simp))
    have hxs : ∀ x ∈ xs, x.2.isSome := fun x hx => h x (by simp [hx])
    -- a determined rule is a Permit, raises the Deny flag on both sides, or does nothing
    cases b with
    | false => cases e <;> exact ih hfg hxs
    | true =>
      cases e with
      | permit => rfl
      | deny =>
        obtain ⟨h1, h2, h3, h4, h5, h6⟩ := hfg
        exact ih ⟨h1, h2, h3, h4, h5, rfl⟩ hxs

/-- On determined rules both algorithms report the same decision. -/
theorem permitOverrides_agree {xs : List Finding} (h : ∀ x ∈ xs, x.2.isSome) :
    (permitOverrides3 (xs.map Finding.decision3)).report =
      permitOverrides (xs.map Finding.decision) :=
  permitOverrides_report ⟨rfl, rfl, rfl, rfl, rfl, rfl⟩ h

end AbacMiddleLayer.Xacml
