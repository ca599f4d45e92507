import JsonValidation.Proofs.Bisimulation
import JsonValidation.Proofs.FirstFailure

/-!
# Acceptance transfers

A check transfers to another one if the second accepts whatever is related to an input that the first
accepts. With the equality of inputs as the relation this says that the second check is the weaker
one; with the equality of values it says that the order of entries is of no account. Every combinator
transfers if its parts do, whichever bisimulation relates the inputs:

* `Check.Transfers`: acceptance passes from one check to another;
* `Check.array_transfers` and the like: one statement for each combinator. Parts may be added to a
  union and left out of an intersection or of an object.
-/

namespace JsonValidation

namespace Check

/-- Whether the second check accepts all inputs that are related to one that the first accepts. -/
def Transfers (R : Input → Input → Prop) (a b : Check) : Prop :=
  ∀ ⦃x y⦄, R x y → (a x).verdict = .accepted → (b y).verdict = .accepted

theorem transfers_refl (a : Check) : a.Transfers Eq a := by
  rintro x _ rfl ha
  exact ha

/-- Whether a field transfers to another one of its name, which may be missing where the first may
be. -/
structure FieldTransfers (R : Input → Input → Prop) (f f' : Field Check) : Prop where
  name : f.name = f'.name
  presence : f.presence = .optional → f'.presence = .optional
  validator : f.validator.Transfers R f'.validator

theorem fieldTransfers_refl (f : Field Check) : FieldTransfers Eq f f :=
  ⟨rfl, id, transfers_refl f.validator⟩

variable {R : Input → Input → Prop} (hR : Input.IsBisimulation R)
include hR

theorem ofKind_transfers (kind : Kind) : (ofKind kind).Transfers R (ofKind kind) := by
  intro x y h ha
  rw [ofKind_accepted_iff] at ha ⊢
  exact (hR.hasKind_iff h kind).mp ha

theorem undefined_transfers : undefined.Transfers R undefined := by
  intro x y h ha
  rw [undefined_accepted_iff] at ha ⊢
  exact (hR.eq_absent_iff h).mp ha

/-! ## Arrays -/

theorem array_transfers {a b : Check} (h : a.Transfers R b) : (array a).Transfers R (array b) := by
  intro x y hxy ha
  rw [array_accepted_iff] at ha ⊢
  obtain ⟨values, rfl, ha⟩ := ha
  obtain ⟨values', rfl, hv⟩ := hR.exists_array hxy
  refine ⟨values', rfl, fun w hw => ?_⟩
  obtain ⟨i, hi⟩ := List.mem_iff_getElem?.mp hw
  obtain ⟨v, hi', hvw⟩ := Input.exists_getElem?_of_forall₂ hv hi
  exact h hvw (ha v (List.mem_of_getElem? hi'))

section Positions

variable {a b : Listing Check} {values values' : List Value}

omit hR in
/-- The elements at the positions of a listing, in a related array. -/
theorem leading_transfers (h : List.Forall₂ (Transfers R) a.entries b.entries)
    (hv : List.Forall₂ (fun v w => R (.present v) (.present w)) values values')
    (ha : ∀ (i : Nat) (v : Value) (check : Check), values[i]? = some v →
      a.entries[i]? = some check → (check (.present v)).verdict = .accepted)
    (i : Nat) (w : Value) (check : Check) (hi : values'[i]? = some w)
    (hc : b.entries[i]? = some check) : (check (.present w)).verdict = .accepted := by
  obtain ⟨v, hi', hvw⟩ := Input.exists_getElem?_of_forall₂ hv hi
  obtain ⟨check', hc', hab⟩ := Input.exists_getElem?_of_forall₂ h hc
  exact hab hvw (ha i v check' hi' hc')

theorem tuple_transfers (h : List.Forall₂ (Transfers R) a.entries b.entries) :
    (tuple a).Transfers R (tuple b) := by
  intro x y hxy ha
  rw [tuple_accepted_iff] at ha ⊢
  obtain ⟨values, rfl, hl, ha⟩ := ha
  obtain ⟨values', rfl, hv⟩ := hR.exists_array hxy
  have hlen : values'.length = b.length :=
    calc values'.length = values.length := hv.length_eq.symm
      _ = a.length := hl
      _ = b.length := h.length_eq
  exact ⟨values', rfl, hlen, leading_transfers h hv ha⟩

theorem restTuple_transfers {rest rest' : Check}
    (h : List.Forall₂ (Transfers R) a.entries b.entries) (hr : rest.Transfers R rest') :
    (restTuple a rest).Transfers R (restTuple b rest') := by
  intro x y hxy ha
  rw [restTuple_accepted_iff] at ha ⊢
  obtain ⟨values, rfl, hl, ha, har⟩ := ha
  obtain ⟨values', rfl, hv⟩ := hR.exists_array hxy
  have hab : a.length = b.length := h.length_eq
  have hlen : b.length ≤ values'.length := by
    rw [← hab, ← hv.length_eq]
    exact hl
  refine ⟨values', rfl, hlen, leading_transfers h hv ha, fun i w hi hw => ?_⟩
  obtain ⟨v, hi', hvw⟩ := Input.exists_getElem?_of_forall₂ hv hw
  exact hr hvw (har i v (hab ▸ hi) hi')

omit hR in
/-- A tuple with a rest takes all arrays that the tuple without it takes. -/
theorem tuple_transfers_restTuple (rest : Check) (h : a.entries = b.entries) :
    (tuple a).Transfers Eq (restTuple b rest) := by
  rintro x _ rfl ha
  rw [tuple_accepted_iff] at ha
  rw [restTuple_accepted_iff]
  obtain ⟨values, rfl, hl, ha⟩ := ha
  have hlen : values.length = b.length := by rw [hl, Listing.length, Listing.length, h]
  refine ⟨values, rfl, Nat.le_of_eq hlen.symm, h ▸ ha, fun i v hi hv => ?_⟩
  -- There is no element past the listing.
  obtain ⟨hlt, -⟩ := List.getElem?_eq_some_iff.mp hv
  omega

end Positions

/-! ## Combinations -/

section Combinations

variable {a b : Listing Check}

omit hR in
/-- Alternatives may be added to a union, as long as none of them ends in a fault. -/
theorem union_transfers (hf : ∀ check ∈ b.entries, check.NeverFaults)
    (h : ∀ check ∈ a.entries, ∃ check' ∈ b.entries, check.Transfers R check') :
    (union a).Transfers R (union b) := by
  intro x y hxy ha
  rw [union_eq] at ha
  obtain ⟨before, decider, after, e, -, hd⟩ := (Run.firstAccepted_decided_iff (by simp)).mp ha
  obtain ⟨check', hm, hc⟩ := h decider (e ▸ List.mem_append_right before List.mem_cons_self)
  have hnf : ∀ check ∈ b.entries, ∀ fault, (check y).verdict ≠ .faulted fault :=
    fun check hm => hf check hm y
  rw [union_accepted_iff hnf]
  exact ⟨check', hm, hc hxy hd⟩

omit hR in
/-- Parts may be left out of an intersection. -/
theorem intersection_transfers
    (h : ∀ check' ∈ b.entries, ∃ check ∈ a.entries, check.Transfers R check') :
    (intersection a).Transfers R (intersection b) := by
  intro x y hxy ha
  rw [intersection_accepted_iff] at ha ⊢
  intro check' hm'
  obtain ⟨check, hm, hc⟩ := h check' hm'
  exact hc hxy (ha check hm)

end Combinations

/-! ## Objects -/

theorem record_transfers {keys keys' values values' : Check} (hk : keys.Transfers R keys')
    (hv : values.Transfers R values') : (record keys values).Transfers R (record keys' values') := by
  intro x y hxy ha
  rw [record_accepted_iff] at ha ⊢
  obtain ⟨entries, rfl, ha⟩ := ha
  obtain ⟨entries', rfl⟩ := hR.exists_object hxy
  refine ⟨entries', rfl, fun e' he' => ?_⟩
  obtain ⟨e, he, hke, hve⟩ := hR.entry hxy e' he'
  obtain ⟨hka, hva⟩ := ha e he
  rw [hke] at hka
  exact ⟨hk (hR.key e'.1) hka, hv hve hva⟩

/-- Fields may be left out of an object, and required fields may become optional ones. -/
theorem object_transfers {fields fields' : List (Field Check)}
    (h : ∀ f' ∈ fields', ∃ f ∈ fields, FieldTransfers R f f') :
    (object fields).Transfers R (object fields') := by
  intro x y hxy ha
  rw [object_accepted_iff] at ha ⊢
  obtain ⟨entries, rfl, ha⟩ := ha
  obtain ⟨entries', rfl⟩ := hR.exists_object hxy
  refine ⟨entries', rfl, fun f' hf' => ?_⟩
  obtain ⟨f, hf, hname, hpresence, hc⟩ := h f' hf'
  obtain ⟨hpresent, habsent⟩ := ha f hf
  have hrel := hR.lookup hxy f'.name
  rw [hname] at hpresent habsent
  constructor
  · intro w hw
    rw [hw] at hrel
    obtain ⟨v, hv, hvw⟩ := Input.exists_of_rel_some hrel
    exact hc hvw (hpresent v hv)
  · intro hn
    rw [hn] at hrel
    exact hpresence (habsent (Input.eq_none_of_rel_none hrel))

end Check

end JsonValidation
