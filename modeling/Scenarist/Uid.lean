import Scenarist.Text.Basic

set_option autoImplicit false

/-! # New identifiers

Identifiers are made one after the other by a rule that the caller chooses; a supply counts how many
have been handed out, so that every use of it shows in its value. -/

namespace Scenarist

/-- A supply of new identifiers. -/
structure UidSupply where
  /-- The identifier of each number. -/
  make : Nat → Text
  /-- How many have been handed out. -/
  used : Nat := 0

/-- The next identifier and the supply after it. -/
def UidSupply.next (supply : UidSupply) : Text × UidSupply :=
  (supply.make (supply.used + 1), { supply with used := supply.used + 1 })

/-! ## Random identifiers -/

namespace Uid

/-- The hexadecimal digits of a number, the lowest ones, so many. -/
def hexDigits (count bits : Nat) : Text :=
  (List.range count).foldl (fun digits i => Nat.digitChar (bits / Nat.pow 16 i % 16) :: digits) []

/-- The identifier of some bits: five groups of digits, of which one digit says that the bits are random
and another one how they are laid out. -/
def ofBits (bits : Nat) : Text :=
  let digits := hexDigits 30 bits
  let group := fun (start count : Nat) => (digits.drop start).take count
  let layout := Nat.digitChar (8 + bits / Nat.pow 16 30 % 4)
  Text.joinWith ['-'] [group 0 8, group 8 4, '4' :: group 12 3, layout :: group 15 3, group 18 12]

/-- So many random bits, sixteen at a time. -/
def randomBits : (count : Nat) → StdGen → Nat
  | 0, _ => 0
  | count + 1, generator =>
    let (drawn, generator) := stdNext generator
    drawn % 0x10000 + 0x10000 * randomBits count generator

end Uid

/-- A supply of random identifiers, which the seed decides. -/
def UidSupply.random (seed : Nat) : UidSupply where
  make n := Uid.ofBits (Uid.randomBits 8 (mkStdGen (seed + n)))

end Scenarist
