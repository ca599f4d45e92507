import JsonValidation.Schema.Basic

/-!
# Induction on trees

Values, failures and schemas hold their parts in lists. Their induction principles give the
hypothesis for every member of such a list:

* `Value.induction`, `Failure.induction`, `Schema.induction`.
-/

namespace JsonValidation

/-- Induction on values, with the hypothesis for all elements and for the values of all entries. -/
@[induction_eliminator]
theorem Value.induction {motive : Value → Prop} (null : motive .null)
    (boolean : ∀ b, motive (.boolean b)) (number : ∀ n, motive (.number n))
    (string : ∀ s, motive (.string s))
    (array : ∀ items, (∀ v ∈ items, motive v) → motive (.array items))
    (object : ∀ entries, (∀ e ∈ entries, motive e.2) → motive (.object entries)) (v : Value) :
    motive v :=
  @Value.rec motive (fun items => ∀ v ∈ items, motive v) (fun entries => ∀ e ∈ entries, motive e.2)
    (fun e => motive e.2) null boolean number string array object
    (fun _ h => absurd h List.not_mem_nil) (fun _ _ hv hr => List.forall_mem_cons.mpr ⟨hv, hr⟩)
    (fun _ h => absurd h List.not_mem_nil) (fun _ _ he hr => List.forall_mem_cons.mpr ⟨he, hr⟩)
    (fun _ _ hv => hv) v

/-- Induction on failures, with the hypothesis for all alternatives. -/
@[induction_eliminator]
theorem Failure.induction {motive : Failure → Prop}
    (mismatch : ∀ expected got, motive (.mismatch expected got))
    (notUndefined : ∀ got, motive (.notUndefined got)) (notFound : ∀ name, motive (.notFound name))
    (invalidValue : ∀ got, motive (.invalidValue got))
    (lengthNotEqual : ∀ got, motive (.lengthNotEqual got))
    (lengthTooShort : ∀ got, motive (.lengthTooShort got))
    (notUnion : ∀ alternatives, (∀ failure ∈ alternatives, motive failure) →
      motive (.notUnion alternatives))
    (invalidKey : ∀ inner, motive inner → motive (.invalidKey inner))
    (invalidElement : ∀ segment inner, motive inner → motive (.invalidElement segment inner))
    (failure : Failure) : motive failure :=
  @Failure.rec motive (fun alternatives => ∀ failure ∈ alternatives, motive failure) mismatch
    notUndefined notFound invalidValue lengthNotEqual lengthTooShort notUnion invalidKey
    invalidElement (fun _ h => absurd h List.not_mem_nil)
    (fun _ _ hf hr => List.forall_mem_cons.mpr ⟨hf, hr⟩) failure

/-- Induction on schemas, with the hypothesis for all members of a list and for the schemas of all
fields. -/
@[induction_eliminator]
theorem Schema.induction {motive : Schema → Prop} (scalar : ∀ kind, motive (.scalar kind))
    (undefined : motive .undefined) (literal : ∀ l, motive (.literal l))
    (guard : ∀ g, motive (.guard g)) (array : ∀ items, motive items → motive (.array items))
    (tuple : ∀ form elements, (∀ s ∈ elements, motive s) → motive (.tuple form elements))
    (restTuple : ∀ form leading rest, (∀ s ∈ leading, motive s) → motive rest →
      motive (.restTuple form leading rest))
    (union : ∀ form first others, (∀ s ∈ first :: others, motive s) →
      motive (.union form first others))
    (intersection : ∀ form parts, (∀ s ∈ parts, motive s) → motive (.intersection form parts))
    (record : ∀ keys values, motive keys → motive values → motive (.record keys values))
    (object : ∀ fields, (∀ f ∈ fields, motive f.validator) → motive (.object fields))
    (readonly : ∀ inner, motive inner → motive (.readonly inner))
    (branded : ∀ brand inner, motive inner → motive (.branded brand inner))
    (shared : ∀ inner, motive inner → motive (.shared inner)) (schema : Schema) : motive schema :=
  @Schema.rec motive (fun schemas => ∀ s ∈ schemas, motive s)
    (fun fields => ∀ f ∈ fields, motive f.validator) (fun f => motive f.validator) scalar undefined
    literal guard array tuple restTuple
    (fun form first others hf ho => union form first others (List.forall_mem_cons.mpr ⟨hf, ho⟩))
    intersection record object readonly branded shared
    (fun _ h => absurd h List.not_mem_nil) (fun _ _ hs hr => List.forall_mem_cons.mpr ⟨hs, hr⟩)
    (fun _ h => absurd h List.not_mem_nil) (fun _ _ hf hr => List.forall_mem_cons.mpr ⟨hf, hr⟩)
    (fun _ _ _ _ hs => hs) schema

end JsonValidation
