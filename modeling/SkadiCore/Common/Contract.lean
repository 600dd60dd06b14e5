import SkadiCore.Common.Bytes

/-!
# Parsers that ask for more

A parser takes what has arrived so far. It returns a value with the number of bytes that it
consumed, or asks for more: it needs `need` bytes and has `have_`. `Contract` is what
the caller relies on.

* `Contract.of_format`: for a parser that accepts exactly the strings that begin with an
  encoding, only the requests for more remain to be looked at.
-/

namespace SkadiCore

variable {ε α : Type} {incomplete : ℕ → ℕ → ε} {parse : Bytes → Except ε (α × ℕ)} {input : Bytes}

/-- A request for more names what there is, which is too little, and asks for no more than
    what every input that begins so needs. A value depends on nothing behind what was
    consumed for it. -/
structure Contract (incomplete : ℕ → ℕ → ε) (parse : Bytes → Except ε (α × ℕ))
    (input : Bytes) : Prop where
  short : ∀ need have_, parse input = .error (incomplete need have_) →
    have_ = input.length ∧ input.length < need ∧
      ∀ more v n, parse (input ++ more) = .ok (v, n) → need ≤ n
  done : ∀ v n, parse input = .ok (v, n) →
    n ≤ input.length ∧ ∀ more, parse (input.take n ++ more) = .ok (v, n)

theorem Contract.of_format {encode : α → Bytes} {P : α → Prop}
    (hformat : ∀ input v n, parse input = .ok (v, n) ↔
      ∃ rest, input = encode v ++ rest ∧ P v ∧ n = (encode v).length)
    (hshort : ∀ need have_, parse input = .error (incomplete need have_) →
      have_ = input.length ∧ input.length < need ∧
        ∀ more v n, parse (input ++ more) = .ok (v, n) → need ≤ n) :
    Contract incomplete parse input := by
  refine ⟨hshort, fun v n hparse => ?_⟩
  obtain ⟨rest, rfl, hv, rfl⟩ := (hformat input v n).mp hparse
  refine ⟨by simp, fun more => ?_⟩
  rw [List.take_left]
  exact (hformat _ v _).mpr ⟨more, rfl, hv, rfl⟩

end SkadiCore
