import H264.Sei.Country
import H264.Sei.Message

/-!
# User data

Messages with data of a user's own, under a country code of Recommendation T.35 (D.1.5) or under an
identifier of 16 bytes (D.1.6).
-/

namespace H264

/-- User data under a country code; the code 255 is followed by a further byte. -/
structure UserDataRegistered where
  countryCode : UInt8
  extensionByte : Option UInt8
  payload : Bytes
deriving DecidableEq, Repr, Inhabited

/-- User data under an identifier of 16 bytes. -/
structure UserDataUnregistered where
  uuid : Bytes
  payload : Bytes
deriving DecidableEq, Repr, Inhabited

namespace UserDataRegistered

/-- The code that a further byte follows. -/
def escapeCode : UInt8 := 255

/-- The data in a message. -/
def ofMessage (message : SeiMessage) : Except Error UserDataRegistered := do
  match ← message.payloadAs .userDataRegistered with
  | [] => throw (.truncated "itu_t_t35_country_code")
  | code :: rest =>
    if code = escapeCode then
      match rest with
      | [] => throw (.truncated "itu_t_t35_country_code_extension_byte")
      | byte :: payload => return { countryCode := code, extensionByte := some byte, payload }
    else return { countryCode := code, extensionByte := none, payload := rest }

/-- The country of a code that has one and no further byte. -/
def countryName? (data : UserDataRegistered) : Option String :=
  if data.extensionByte.isSome then none else Country.name? data.countryCode.toNat

end UserDataRegistered

namespace UserDataUnregistered

/-- The length of an identifier. -/
def uuidLength : Nat := 16

/-- The data in a message. -/
def ofMessage (message : SeiMessage) : Except Error UserDataUnregistered := do
  let payload ← message.payloadAs .userDataUnregistered
  if payload.length < uuidLength then throw (.truncated "uuid_iso_iec_11578")
  return { uuid := payload.take uuidLength, payload := payload.drop uuidLength }

/-- The lowercase hexadecimal digits of some bytes. -/
def hexText (bytes : Bytes) : String :=
  String.join (bytes.map fun byte => Text.hex 2 byte.toNat)

/-- The identifier in its usual written form, groups of 4, 2, 2, 2 and 6 bytes. -/
def uuidText (data : UserDataUnregistered) : String :=
  let group (start count : Nat) : String := hexText ((data.uuid.drop start).take count)
  "-".intercalate [group 0 4, group 4 2, group 6 2, group 8 2, group 10 6]

end UserDataUnregistered

end H264
