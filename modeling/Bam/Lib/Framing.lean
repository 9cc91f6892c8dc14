import Bam.Lib.Bytewise

namespace Framing

/-!
# Records that frame themselves

An encoding whose records can be told apart whatever follows them stays
injective when records are written one after the other.
-/

variable {Record : Type*} {Symbol : Type*}

/-- Where encodings of valid records start two equal texts, the records are
equal. -/
def SelfFraming
    (encode : Record → List Symbol)
    (valid : Record → Prop) : Prop :=
  ∀ {first second : Record} {firstRest secondRest : List Symbol},
    valid first →
    valid second →
    encode first ++ firstRest = encode second ++ secondRest →
    first = second

/-- Lists of self-framing records are told apart by their text. -/
theorem SelfFraming.flatMap_injective
    {encode : Record → List Symbol}
    {valid : Record → Prop}
    (framing : SelfFraming encode valid)
    (written : ∀ record, encode record ≠ [])
    {first second : List Record}
    (firstValid : ∀ record ∈ first, valid record)
    (secondValid : ∀ record ∈ second, valid record)
    (same : first.flatMap encode = second.flatMap encode) :
    first = second := by
  induction first generalizing second with
  | nil =>
      cases second with
      | nil => rfl
      | cons record rest =>
          rw [List.flatMap_nil, List.flatMap_cons] at same
          exact absurd (List.append_eq_nil_iff.mp same.symm).1
            (written record)
  | cons record rest inductionHypothesis =>
      cases second with
      | nil =>
          rw [List.flatMap_nil, List.flatMap_cons] at same
          exact absurd (List.append_eq_nil_iff.mp same).1 (written record)
      | cons other others =>
          rw [List.flatMap_cons, List.flatMap_cons] at same
          have sameRecord : record = other :=
            framing (firstValid record List.mem_cons_self)
              (secondValid other List.mem_cons_self) same
          subst sameRecord
          have sameRest := List.append_cancel_left same
          rw [inductionHypothesis
            (fun item member =>
              firstValid item (List.mem_cons_of_mem record member))
            (fun item member =>
              secondValid item (List.mem_cons_of_mem record member))
            sameRest]

/-- A number of fixed width at the start of a text can be read off. -/
theorem toBE_append_inj
    {width first second : Nat}
    {firstRest secondRest : List UInt8}
    (firstFits : first < 256 ^ width)
    (secondFits : second < 256 ^ width)
    (same :
      Bytewise.toBE width first ++ firstRest =
        Bytewise.toBE width second ++ secondRest) :
    first = second ∧ firstRest = secondRest := by
  obtain ⟨sameNumber, sameRest⟩ :=
    List.append_inj same
      ((Bytewise.length_toBE width first).trans
        (Bytewise.length_toBE width second).symm)
  refine ⟨?_, sameRest⟩
  rw [← Bytewise.ofBE_toBE_of_lt firstFits, sameNumber,
    Bytewise.ofBE_toBE_of_lt secondFits]

end Framing
