import Mathlib.Data.List.Basic

/-! # Records one after the other

  A format writes a record as a string that tells where it ends, so that records
  written one after the other are read back one by one, as they were
  (`readMany_encodeAll`).
-/

namespace Records

universe u v

/-- How records are written, and what is read at the front of a string: a record
    and the number of bytes it takes, or nothing when it does not end there. -/
structure Format (Byte : Type u) (Record : Type v) where
  encode : Record → List Byte
  read : List Byte → Option (Record × Nat)
  read_encode : ∀ r rest, read (encode r ++ rest) = some (r, (encode r).length)
  read_size : ∀ bytes x, read bytes = some x → 0 < x.2 ∧ x.2 ≤ bytes.length

namespace Format

variable {Byte : Type u} {Record : Type v} (fmt : Format Byte Record)

def encodeAll (rs : List Record) : List Byte := rs.flatMap fmt.encode

/-- The first `n` records, if that many can be read. -/
def readMany : Nat → List Byte → Option (List Record)
  | 0, _ => some []
  | n + 1, bytes =>
      (fmt.read bytes).bind fun x => (readMany n (bytes.drop x.2)).map fun rs => x.1 :: rs

theorem readMany_encodeAll (rs : List Record) (rest : List Byte) :
    fmt.readMany rs.length (fmt.encodeAll rs ++ rest) = some rs := by
  induction rs with
  | nil => rfl
  | cons r rs ih =>
    have hread := fmt.read_encode r (fmt.encodeAll rs ++ rest)
    have hall : fmt.encodeAll (r :: rs) ++ rest = fmt.encode r ++ (fmt.encodeAll rs ++ rest) := by
      simp [encodeAll]
    rw [hall, List.length_cons, readMany, hread]
    simp [ih]

end Format

end Records
