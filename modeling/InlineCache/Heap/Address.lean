import InlineCache.Value

/-!
Addresses of heap cells.  A cell is known by its kind and its number among the cells of that kind, and
both can be read back from its address.  An object has two further blocks, for its dynamic slots and
for its elements.
-/

namespace InlineCache

abbrev CellId := UInt32

/-- What an address can name. -/
inductive Block
  | object (id : CellId)
  | slots (id : CellId)
  | elements (id : CellId)
  | shape (id : CellId)
  | string (id : CellId)
  | symbol (id : CellId)
  | bigint (id : CellId)
  | descriptor (kind : ClassKind)
  deriving DecidableEq, Repr

namespace Block

def kindCode : Block → Nat
  | .object _ => 0
  | .slots _ => 1
  | .elements _ => 2
  | .shape _ => 3
  | .string _ => 4
  | .symbol _ => 5
  | .bigint _ => 6
  | .descriptor _ => 7

def number : Block → Nat
  | .object id | .slots id | .elements id | .shape id | .string id | .symbol id | .bigint id =>
      id.toNat
  | .descriptor kind => kind.byte.toNat

/-- Addresses lie in the upper half of the 48-bit range, 128 bytes for each number. -/
def address (block : Block) : Address :=
  UInt64.ofNat (0x800000000000 + 128 * block.number + 16 * block.kindCode)

def ofAddress? (address : Address) : Option Block :=
  let n := address.toNat
  if n < 0x800000000000 ∨ 0x808000000000 ≤ n ∨ n % 16 ≠ 0 then none
  else
    let number := (n - 0x800000000000) / 128
    let id := UInt32.ofNat number
    match n / 16 % 8 with
    | 0 => some (.object id)
    | 1 => some (.slots id)
    | 2 => some (.elements id)
    | 3 => some (.shape id)
    | 4 => some (.string id)
    | 5 => some (.symbol id)
    | 6 => some (.bigint id)
    | _ => if number < 8 then (ClassKind.ofByte? (UInt8.ofNat number)).map .descriptor else none

theorem number_lt (block : Block) : block.number < 0x100000000 := by
  cases block
  case descriptor kind =>
    have := kind.byte.toNat_lt
    simp only [number]
    omega
  all_goals exact UInt32.toNat_lt _

theorem kindCode_lt (block : Block) : block.kindCode < 8 := by
  cases block <;> simp [kindCode]

theorem toNat_address (block : Block) :
    block.address.toNat = 0x800000000000 + 128 * block.number + 16 * block.kindCode := by
  have hnumber := block.number_lt
  have hkind := block.kindCode_lt
  simp only [address, UInt64.toNat_ofNat']
  omega

/-- An address names its block and no other. -/
@[simp] theorem ofAddress?_address (block : Block) : ofAddress? block.address = some block := by
  have hnumber := block.number_lt
  have hkind := block.kindCode_lt
  have haddress := block.toNat_address
  have hquotient : (block.address.toNat - 0x800000000000) / 128 = block.number := by omega
  have hkindCode : block.address.toNat / 16 % 8 = block.kindCode := by omega
  have hlow : ¬(block.address.toNat < 0x800000000000 ∨ 0x808000000000 ≤ block.address.toNat ∨
      block.address.toNat % 16 ≠ 0) := by omega
  simp only [ofAddress?, hlow, if_false, hquotient, hkindCode]
  cases block
  case descriptor kind => cases kind <;> rfl
  all_goals simp [kindCode, number]

theorem address_ne_zero (block : Block) : block.address ≠ 0 := by
  intro h
  have := block.toNat_address
  rw [h] at this
  simp at this
  omega

end Block

end InlineCache
