/-!
# Proofs that verify earlier proofs

A program reads an input, may verify one earlier proof on the way, and commits to public values.
What a proof says when the verifier is sound is that its program has been run on some input, after
the proof it verified was made in the same way.
-/

namespace BitvmNode.Reasoning

/-- A program by what it commits to on an input and which proof it relies on there. -/
structure Program (Id Values : Type) where
  Input : Type
  commits : Input → Option Values
  verifies : Input → Option (Id × Values)

/-- The program `id` has been run and has committed to `values`, and the proof it verified, if any,
was made before. -/
inductive Made {Id Values : Type} (programs : Id → Program Id Values) : Id → Values → Prop
  | run {id : Id} {values : Values} (input : (programs id).Input)
      (commits : (programs id).commits input = some values)
      (earlier : ∀ id' values', (programs id).verifies input = some (id', values') →
        Made programs id' values') :
      Made programs id values

/-- Whatever verifies was made by the program it verifies as. -/
def SoundVerifier {Proof Id Values : Type} (verify : Proof → Option (Id × Values))
    (programs : Id → Program Id Values) : Prop :=
  ∀ proof id values, verify proof = some (id, values) → Made programs id values

theorem Made.of_run {Id Values : Type} {programs : Id → Program Id Values} {id : Id}
    {values : Values} {program : Program Id Values} (hprogram : programs id = program)
    (input : program.Input) (hcommits : program.commits input = some values)
    (hearlier : ∀ id' values', program.verifies input = some (id', values') →
      Made programs id' values') : Made programs id values := by
  subst hprogram
  exact Made.run input hcommits hearlier

/-- Induction over the proofs that a proof rests on.  The program is a variable of its own so that
it can be replaced by the one an id is known to have. -/
theorem Made.rule {Id Values : Type} {programs : Id → Program Id Values} (inv : Id → Values → Prop)
    (hrun : ∀ id values program, programs id = program →
      ∀ input : program.Input, program.commits input = some values →
        (∀ id' values', program.verifies input = some (id', values') →
          Made programs id' values' ∧ inv id' values') → inv id values)
    {id : Id} {values : Values} (h : Made programs id values) : inv id values := by
  induction h with
  | run input commits earlier ih =>
    exact hrun _ _ _ rfl input commits fun id' values' hverifies =>
      ⟨earlier id' values' hverifies, ih id' values' hverifies⟩

end BitvmNode.Reasoning
