import JsonValidation.Guard
import JsonValidation.Proofs.Bisimulation
import JsonValidation.Proofs.Combinators

/-!
# Runs that match

Two runs match if they make the same calls, up to a relation of the arguments, and end alike, up to a
relation of the failures. Runs that are put together from matching runs match, so two checks match on
related inputs if their parts do.

* `Run.Matches`, `Check.Matches`: matching runs, and checks whose runs on related inputs match;
* `Failure.IsCongruence`: what is asked of the relation of failures;
* `Run.Matches.andThen`, `Run.forEach_matches`, `Run.firstAccepted_matches`: runs put together;
* `Check.array_matches` and the like: one statement for each combinator.
-/

namespace JsonValidation

/-- Whether two calls are of one label and with related arguments. -/
structure Call.Matches (R : Input → Input → Prop) (c d : Call) : Prop where
  label : c.label = d.label
  argument : R c.argument d.argument

/-- Whether two verdicts are alike: both accept, both reject with related failures, or both end in
one fault. -/
inductive Verdict.Matches (F : Failure → Failure → Prop) : Verdict → Verdict → Prop where
  | accepted : Matches F .accepted .accepted
  | rejected {p q : Failure} (h : F p q) : Matches F (.rejected p) (.rejected q)
  | faulted (fault : Fault) : Matches F (.faulted fault) (.faulted fault)

/-- Whether two runs make matching calls, one by one, and end alike. -/
structure Run.Matches (R : Input → Input → Prop) (F : Failure → Failure → Prop) (r s : Run) :
    Prop where
  calls : List.Forall₂ (Call.Matches R) r.calls s.calls
  verdict : r.verdict.Matches F s.verdict

/-- Whether the runs of two checks on related inputs match. -/
def Check.Matches (R : Input → Input → Prop) (F : Failure → Failure → Prop) (a b : Check) : Prop :=
  ∀ ⦃x y⦄, R x y → (a x).Matches R F (b y)

/-- Whether two fields have one name, may both be missing or neither, and have checks that match. -/
structure Check.FieldMatches (R : Input → Input → Prop) (F : Failure → Failure → Prop)
    (f f' : Field Check) : Prop where
  name : f.name = f'.name
  presence : f.presence = f'.presence
  validator : f.validator.Matches R F f'.validator

/-- Whether a relation of failures holds of failures that say the same of related inputs, and of
failures that are put together from related ones. -/
structure Failure.IsCongruence (R : Input → Input → Prop) (F : Failure → Failure → Prop) : Prop where
  mismatch {x y : Input} (kind : Kind) : R x y → F (.mismatch kind x) (.mismatch kind y)
  notUndefined {v w : Value} : R (.present v) (.present w) → F (.notUndefined v) (.notUndefined w)
  notFound (name : String) : F (.notFound name) (.notFound name)
  invalidValue {x y : Input} : R x y → F (.invalidValue x) (.invalidValue y)
  lengthNotEqual {v w : Value} :
    R (.present v) (.present w) → F (.lengthNotEqual v) (.lengthNotEqual w)
  lengthTooShort {v w : Value} :
    R (.present v) (.present w) → F (.lengthTooShort v) (.lengthTooShort w)
  notUnion {ps qs : List Failure} : List.Forall₂ F ps qs → F (.notUnion ps) (.notUnion qs)
  invalidKey {p q : Failure} : F p q → F (.invalidKey p) (.invalidKey q)
  invalidElement {p q : Failure} (segment : Segment) :
    F p q → F (.invalidElement segment p) (.invalidElement segment q)

theorem Verdict.matches_refl {F : Failure → Failure → Prop} (verdict : Verdict)
    (hF : ∀ p, F p p) : verdict.Matches F verdict := by
  cases verdict with
  | accepted => exact .accepted
  | rejected p => exact .rejected (hF p)
  | faulted fault => exact .faulted fault

theorem Verdict.Matches.trans {F : Failure → Failure → Prop}
    (hF : ∀ p q r, F p q → F q r → F p r) {u v w : Verdict} (huv : u.Matches F v)
    (hvw : v.Matches F w) : u.Matches F w := by
  cases huv with
  | accepted => exact hvw
  | rejected h => cases hvw with
    | rejected h' => exact .rejected (hF _ _ _ h h')
  | faulted fault => exact hvw

theorem Verdict.Matches.mono {F G : Failure → Failure → Prop} (hFG : ∀ p q, F p q → G p q)
    {u v : Verdict} (h : u.Matches F v) : u.Matches G v := by
  cases h with
  | accepted => exact .accepted
  | rejected h => exact .rejected (hFG _ _ h)
  | faulted fault => exact .faulted fault

theorem Verdict.Matches.exists_left {F : Failure → Failure → Prop} {u : Verdict} {q : Failure}
    (h : u.Matches F (.rejected q)) : ∃ p, u = .rejected p ∧ F p q := by
  cases h with
  | rejected h => exact ⟨_, rfl, h⟩

theorem Verdict.Matches.exists_right {F : Failure → Failure → Prop} {p : Failure} {v : Verdict}
    (h : (Verdict.rejected p).Matches F v) : ∃ q, v = .rejected q ∧ F p q := by
  cases h with
  | rejected h => exact ⟨_, rfl, h⟩

/-- Runs that match on one input make the same calls. -/
theorem Run.matches_eq_iff {F : Failure → Failure → Prop} {r s : Run} :
    r.Matches Eq F s ↔ r.calls = s.calls ∧ r.verdict.Matches F s.verdict := by
  have hc : Call.Matches Eq = Eq := by
    funext c d
    obtain ⟨label, argument⟩ := c
    obtain ⟨label', argument'⟩ := d
    refine propext ⟨?_, ?_⟩
    · rintro ⟨rfl, rfl⟩
      rfl
    · rintro ⟨⟩
      exact ⟨rfl, rfl⟩
  constructor
  · rintro ⟨h, hv⟩
    rw [hc, List.forall₂_eq_eq_eq] at h
    exact ⟨h, hv⟩
  · rintro ⟨h, hv⟩
    refine ⟨?_, hv⟩
    rw [hc, List.forall₂_eq_eq_eq]
    exact h

theorem Run.matches_refl {F : Failure → Failure → Prop} (hF : ∀ p, F p p) (r : Run) :
    r.Matches Eq F r :=
  matches_eq_iff.mpr ⟨rfl, r.verdict.matches_refl hF⟩

theorem Check.Matches.trans {F : Failure → Failure → Prop}
    (hF : ∀ p q r, F p q → F q r → F p r) {a b c : Check} (hab : a.Matches Eq F b)
    (hbc : b.Matches Eq F c) : a.Matches Eq F c := by
  intro x y hxy
  obtain ⟨hc, hv⟩ := Run.matches_eq_iff.mp (hab hxy)
  obtain ⟨hc', hv'⟩ := Run.matches_eq_iff.mp (hbc (Eq.refl y))
  exact Run.matches_eq_iff.mpr ⟨hc.trans hc', hv.trans hF hv'⟩

section Runs

variable {R : Input → Input → Prop} {F : Failure → Failure → Prop}

namespace Run

variable {r r' s s' : Run} {α β : Type} {step : α → Run} {step' : β → Run}

theorem matches_accept : accept.Matches R F accept := ⟨.nil, .accepted⟩

theorem matches_reject {p q : Failure} (h : F p q) : (reject p).Matches R F (reject q) :=
  ⟨.nil, .rejected h⟩

theorem Matches.precededBy {calls calls' : List Call}
    (hc : List.Forall₂ (Call.Matches R) calls calls') (h : r.Matches R F r') :
    (r.precededBy calls).Matches R F (r'.precededBy calls') :=
  ⟨List.rel_append hc h.calls, h.verdict⟩

theorem Matches.andThen (hr : r.Matches R F r') (hs : s.Matches R F s') :
    (r.andThen s).Matches R F (r'.andThen s') := by
  obtain ⟨calls, verdict⟩ := r
  obtain ⟨calls', verdict'⟩ := r'
  obtain ⟨hc, hv⟩ := hr
  cases hv with
  | accepted => exact hs.precededBy hc
  | rejected h => exact ⟨hc, .rejected h⟩
  | faulted fault => exact ⟨hc, .faulted fault⟩

theorem Matches.mapFailure {wrap : Failure → Failure} (h : r.Matches R F r')
    (hw : ∀ {p q}, F p q → F (wrap p) (wrap q)) :
    (r.mapFailure wrap).Matches R F (r'.mapFailure wrap) := by
  obtain ⟨calls, verdict⟩ := r
  obtain ⟨calls', verdict'⟩ := r'
  obtain ⟨hc, hv⟩ := h
  cases hv with
  | accepted => exact ⟨hc, .accepted⟩
  | rejected h => exact ⟨hc, .rejected (hw h)⟩
  | faulted fault => exact ⟨hc, .faulted fault⟩

theorem forEach_matches {as : List α} {bs : List β}
    (h : List.Forall₂ (fun a b => (step a).Matches R F (step' b)) as bs) :
    (forEach step as).Matches R F (forEach step' bs) := by
  induction h with
  | nil => exact matches_accept
  | cons ha _ ih => exact ha.andThen ih

theorem firstAccepted_matches (hF : Failure.IsCongruence R F) {as : List α} {bs : List β}
    (h : List.Forall₂ (fun a b => (step a).Matches R F (step' b)) as bs)
    {earlier earlier' : List Failure} (he : List.Forall₂ F earlier earlier') :
    (firstAccepted step earlier as).Matches R F (firstAccepted step' earlier' bs) := by
  induction h generalizing earlier earlier' with
  | nil => exact matches_reject (hF.notUnion he)
  | @cons a b _ _ ha _ ih =>
    rw [firstAccepted, firstAccepted]
    obtain ⟨hc, hv⟩ := ha
    generalize step a = r at hc hv ⊢
    generalize step' b = r' at hc hv ⊢
    obtain ⟨calls, verdict⟩ := r
    obtain ⟨calls', verdict'⟩ := r'
    cases hv with
    | accepted => exact ⟨hc, .accepted⟩
    | rejected hpq => exact (ih (List.rel_append he (.cons hpq .nil))).precededBy hc
    | faulted fault => exact ⟨hc, .faulted fault⟩

end Run

/-! ## Combinators -/

namespace Check

variable (hR : Input.IsBisimulation R) (hF : Failure.IsCongruence R F)

section Parts

variable {check check' : Check} {values values' : List Value}

include hF

theorem Matches.part (h : check.Matches R F check') (segment : Segment) {v w : Value}
    (hvw : R (.present v) (.present w)) :
    (check.part segment v).Matches R F (check'.part segment w) :=
  (h hvw).mapFailure (hF.invalidElement segment)

omit hF in
theorem forall₂_zipIdx
    (hv : List.Forall₂ (fun v w => R (.present v) (.present w)) values values') (n : Nat) :
    List.Forall₂ (fun (e f : Value × Nat) => R (.present e.1) (.present f.1) ∧ e.2 = f.2)
      (values.zipIdx n) (values'.zipIdx n) := by
  induction hv generalizing n with
  | nil => exact .nil
  | cons h _ ih => exact .cons ⟨h, rfl⟩ (ih (n + 1))

/-- All elements of related arrays, each checked by the check for its position. -/
theorem elements_matches {checkAt checkAt' : Nat → Check}
    (h : ∀ i, (checkAt i).Matches R F (checkAt' i))
    (hv : List.Forall₂ (fun v w => R (.present v) (.present w)) values values') :
    (elements checkAt values).Matches R F (elements checkAt' values') := by
  refine Run.forEach_matches ((forall₂_zipIdx hv 0).imp fun e f hef => ?_)
  obtain ⟨v, i⟩ := e
  obtain ⟨w, j⟩ := f
  obtain ⟨hvw, rfl⟩ : R (.present v) (.present w) ∧ i = j := hef
  exact (h i).part hF _ hvw

end Parts

include hR hF

theorem ofKind_matches (kind : Kind) : (ofKind kind).Matches R F (ofKind kind) := by
  intro x y h
  by_cases hx : x.HasKind kind
  · rw [ofKind_of_hasKind hx, ofKind_of_hasKind ((hR.hasKind_iff h kind).mp hx)]
    exact Run.matches_accept
  · rw [ofKind_of_not_hasKind hx, ofKind_of_not_hasKind (mt (hR.hasKind_iff h kind).mpr hx)]
    exact Run.matches_reject (hF.mismatch kind h)

theorem undefined_matches : undefined.Matches R F undefined := by
  intro x y h
  cases x with
  | absent =>
    obtain rfl := (hR.eq_absent_iff h).mp rfl
    exact Run.matches_accept
  | present v =>
    cases y with
    | absent => cases (hR.eq_absent_iff h).mpr rfl
    | present w => exact Run.matches_reject (hF.notUndefined h)

theorem onItems_matches {run run' : List Value → Run}
    (h : ∀ values values', R (.present (.array values)) (.present (.array values')) →
      List.Forall₂ (fun v w => R (.present v) (.present w)) values values' →
      (run values).Matches R F (run' values')) :
    (onItems run).Matches R F (onItems run') := by
  intro x y hxy
  by_cases hx : x.HasKind .array
  · obtain ⟨values, rfl⟩ := Input.hasKind_array.mp hx
    obtain ⟨values', rfl, hv⟩ := hR.exists_array hxy
    exact h values values' hxy hv
  · have hy := mt (hR.hasKind_iff hxy .array).mpr hx
    rw [onItems_of_not_hasKind hx, onItems_of_not_hasKind hy]
    exact Run.matches_reject (hF.mismatch .array hxy)

theorem onEntries_matches {run run' : List (String × Value) → Run}
    (h : ∀ entries entries', R (.present (.object entries)) (.present (.object entries')) →
      (run entries).Matches R F (run' entries')) :
    (onEntries run).Matches R F (onEntries run') := by
  intro x y hxy
  by_cases hx : x.HasKind .object
  · obtain ⟨entries, rfl⟩ := Input.hasKind_object.mp hx
    obtain ⟨entries', rfl⟩ := hR.exists_object hxy
    exact h entries entries' hxy
  · have hy := mt (hR.hasKind_iff hxy .object).mpr hx
    rw [onEntries_of_not_hasKind hx, onEntries_of_not_hasKind hy]
    exact Run.matches_reject (hF.mismatch .object hxy)

/-! ### Arrays -/

theorem array_matches {a b : Check} (h : a.Matches R F b) : (array a).Matches R F (array b) :=
  onItems_matches hR hF fun _ _ _ hv => elements_matches hF (fun _ => h) hv

section Listings

variable {a b : Listing Check}

omit hR hF in
theorem getD_matches (h : List.Forall₂ (Matches R F) a.entries b.entries) {rest rest' : Check}
    (hr : rest.Matches R F rest') (i : Nat) :
    (a.entries.getD i rest).Matches R F (b.entries.getD i rest') := by
  rw [List.getD_eq_getElem?_getD, List.getD_eq_getElem?_getD]
  have hi := Input.rel_getElem? h i
  generalize a.entries[i]? = c at hi ⊢
  generalize b.entries[i]? = d at hi ⊢
  cases hi with
  | none => exact hr
  | some hcd => exact hcd

theorem tuple_matches (h : List.Forall₂ (Matches R F) a.entries b.entries) :
    (tuple a).Matches R F (tuple b) := by
  have hab : a.length = b.length := h.length_eq
  refine onItems_matches hR hF fun values values' hxy hv => ?_
  have hlen := hv.length_eq
  by_cases hl : values.length = a.length
  · have hl' : values'.length = b.length := by omega
    rw [if_pos hl, if_pos hl', leading_eq_elements undefined (Nat.le_of_eq hl),
      leading_eq_elements undefined (Nat.le_of_eq hl')]
    exact elements_matches hF (getD_matches h (undefined_matches hR hF)) hv
  · have hl' : values'.length ≠ b.length := by omega
    rw [if_neg hl, if_neg hl']
    exact Run.matches_reject (hF.lengthNotEqual hxy)

theorem restTuple_matches (h : List.Forall₂ (Matches R F) a.entries b.entries)
    {rest rest' : Check} (hr : rest.Matches R F rest') :
    (restTuple a rest).Matches R F (restTuple b rest') := by
  have hab : a.length = b.length := h.length_eq
  refine onItems_matches hR hF fun values values' hxy hv => ?_
  have hlen := hv.length_eq
  by_cases hl : values.length < a.length
  · have hl' : values'.length < b.length := by omega
    rw [if_pos hl, if_pos hl']
    exact Run.matches_reject (hF.lengthTooShort hxy)
  · have hl' : ¬ values'.length < b.length := by omega
    rw [if_neg hl, if_neg hl', leading_andThen_rest, leading_andThen_rest]
    exact elements_matches hF (getD_matches h hr) hv

/-! ### Combinations -/

omit hR in
theorem union_matches (h : List.Forall₂ (Matches R F) a.entries b.entries) :
    (union a).Matches R F (union b) := by
  intro x y hxy
  rw [union_eq, union_eq]
  exact Run.firstAccepted_matches hF (h.imp fun _ _ hc => hc hxy) .nil

omit hR hF in
theorem intersection_matches (h : List.Forall₂ (Matches R F) a.entries b.entries) :
    (intersection a).Matches R F (intersection b) := by
  intro x y hxy
  rw [intersection_eq, intersection_eq]
  exact Run.forEach_matches (h.imp fun _ _ hc => hc hxy)

end Listings

/-! ### Objects -/

theorem object_matches {fields fields' : List (Field Check)}
    (h : List.Forall₂ (FieldMatches R F) fields fields') :
    (object fields).Matches R F (object fields') := by
  refine onEntries_matches hR hF fun entries entries' hxy => ?_
  refine Run.forEach_matches (h.imp fun f f' ⟨hn, hp, hc⟩ => ?_)
  have hl := hR.lookup hxy f.name
  rw [field, field, ← hn, ← hp]
  generalize entries.lookup f.name = v at hl ⊢
  generalize entries'.lookup f.name = w at hl ⊢
  cases hl with
  | some hvw => exact hc.part hF _ hvw
  | none =>
    cases f.presence with
    | required => exact Run.matches_reject (hF.notFound f.name)
    | optional => exact Run.matches_accept

end Check

end Runs

/-- The entries of a record are checked in their order, so this is said of one input only. -/
theorem Check.record_matches {F : Failure → Failure → Prop} (hF : Failure.IsCongruence Eq F)
    {keys keys' values values' : Check} (hk : keys.Matches Eq F keys')
    (hv : values.Matches Eq F values') :
    (record keys values).Matches Eq F (record keys' values') := by
  refine onEntries_matches Input.isBisimulation_eq hF fun entries entries' hxy => ?_
  cases hxy
  refine Run.forEach_matches (List.forall₂_same.mpr fun (key, v) _ => ?_)
  have hk' := (hk (Eq.refl (.present (.string key)))).mapFailure hF.invalidKey
  exact hk'.andThen (hv.part hF (.field key) rfl)

end JsonValidation
