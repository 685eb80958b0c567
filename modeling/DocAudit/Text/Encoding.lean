import DocAudit.Text.Quoted

/-!
Reading bytes as UTF-8. Where the bytes are no UTF-8, the fault names the first place that cannot
be read and the bytes that belong to it: a byte that starts no character, a character cut off by
a byte that cannot continue it, or a character cut off by the end.
-/

namespace DocAudit.Text

inductive DecodeCause where
  | invalidStart
  | invalidContinuation
  | unexpectedEnd
  deriving DecidableEq, Repr

structure DecodeFault where
  position : Nat
  first : UInt8
  count : Nat
  cause : DecodeCause
  deriving DecidableEq, Repr

def DecodeCause.message : DecodeCause → String
  | .invalidStart => "invalid start byte"
  | .invalidContinuation => "invalid continuation byte"
  | .unexpectedEnd => "unexpected end of data"

def DecodeFault.message (fault : DecodeFault) : String :=
  let place :=
    if fault.count ≤ 1 then
      let digits := String.ofList (hexadecimal 2 fault.first.toNat)
      s!"byte 0x{digits} in position {fault.position}"
    else s!"bytes in position {fault.position}-{fault.position + fault.count - 1}"
  s!"'utf-8' codec can't decode {place}: {fault.cause.message}"

/-- How many bytes follow a leading byte, and the bounds of the first of them. Later ones lie
between `0x80` and `0xBF`. -/
def continuation? (lead : UInt8) : Option (Nat × UInt8 × UInt8) :=
  if lead < 0x80 then some (0, 0x80, 0xBF)
  else if lead < 0xC2 then none
  else if lead < 0xE0 then some (1, 0x80, 0xBF)
  else if lead = 0xE0 then some (2, 0xA0, 0xBF)
  else if lead = 0xED then some (2, 0x80, 0x9F)
  else if lead < 0xF0 then some (2, 0x80, 0xBF)
  else if lead = 0xF0 then some (3, 0x90, 0xBF)
  else if lead < 0xF4 then some (3, 0x80, 0xBF)
  else if lead = 0xF4 then some (3, 0x80, 0x8F)
  else none

/-- A character that has been begun: its leading byte with its position, the bytes read so far,
the bytes owed, and the bounds of the next one. -/
structure PartialCharacter where
  position : Nat
  first : UInt8
  count : Nat
  owed : Nat
  low : UInt8
  high : UInt8

def PartialCharacter.fault (character : PartialCharacter) (cause : DecodeCause) : DecodeFault where
  position := character.position
  first := character.first
  count := character.count
  cause := cause

/-- The first fault of the bytes from `position` on, inside the character begun before. -/
def findFault (position : Nat) (begun : Option PartialCharacter) :
    List UInt8 → Option DecodeFault
  | [] => begun.map (·.fault .unexpectedEnd)
  | byte :: rest =>
    match begun with
    | some character =>
      if character.low ≤ byte ∧ byte ≤ character.high then
        if character.owed ≤ 1 then findFault (position + 1) none rest
        else
          let longer := { character with
            count := character.count + 1
            owed := character.owed - 1
            low := 0x80
            high := 0xBF }
          findFault (position + 1) (some longer) rest
      else some (character.fault .invalidContinuation)
    | none =>
      match continuation? byte with
      | none => some ⟨position, byte, 1, .invalidStart⟩
      | some (0, _, _) => findFault (position + 1) none rest
      | some (owed, low, high) =>
        findFault (position + 1) (some ⟨position, byte, 1, owed, low, high⟩) rest

def decode (bytes : ByteArray) : Except DecodeFault (List Char) :=
  match String.fromUTF8? bytes with
  | some text => .ok text.toList
  | none => .error ((findFault 0 none bytes.toList).getD ⟨0, 0, 0, .unexpectedEnd⟩)

def encode (text : List Char) : ByteArray :=
  (String.ofList text).toUTF8

theorem decode_encode (text : List Char) : decode (encode text) = .ok text := by
  have valid : (encode text).IsValidUTF8 := (String.ofList text).isValidUTF8
  have read : String.fromUTF8? (encode text) = some (String.ofList text) := by
    unfold String.fromUTF8?
    rw [dif_pos valid]
    rfl
  simp [decode, read]

end DocAudit.Text
