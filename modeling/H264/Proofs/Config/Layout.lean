import H264.Proofs.Config.Entries

/-!
# Layouts of decoder configuration records

Six header bytes, counted entries of sequence parameter sets, a count and entries of picture
parameter sets, then, for some profiles and where bytes remain, four bytes and counted extensions,
and a tail: a `RecordLayout`. **Every layout is read as its record** (`ofBytes_bytes`), **and data
that no layout is of is an error of framing** (`ofBytes_cases`).
-/

namespace H264

namespace DecoderConfig

/-! ## Layouts -/

/-- The part that some profiles add: three fields, a count, and as many entries. -/
structure ExtensionLayout where
  chromaFormat : UInt8
  bitDepthLuma : UInt8
  bitDepthChroma : UInt8
  count : UInt8
  entries : List (Entry .seqParameterSetExtension)
  count_eq : count.toNat = entries.length

namespace ExtensionLayout

variable (extension : ExtensionLayout)

/-- The four bytes before the entries. -/
def fields : Bytes :=
  [extension.chromaFormat, extension.bitDepthLuma, extension.bitDepthChroma, extension.count]

/-- The bytes of the part. -/
def bytes : Bytes :=
  extension.fields ++ extension.entries.flatMap Entry.stored

/-- What a record shows of a part that stands at `offset`. -/
def config (offset : Nat) : ConfigExtension where
  chromaFormat := extension.chromaFormat.toNat % 4
  bitDepthLumaMinus8 := extension.bitDepthLuma.toNat % 8
  bitDepthChromaMinus8 := extension.bitDepthChroma.toNat % 8
  spsExtensions := unitsFrom (offset + 4) extension.entries

end ExtensionLayout

/-- A record as it lies in the data. The first byte is one; only the low five bits of the sixth
count entries. A profile that has an extension part goes without it only where nothing is left. -/
structure RecordLayout where
  profileIdc : UInt8
  compatibility : UInt8
  levelIdc : UInt8
  lengthSize : UInt8
  spsCount : UInt8
  sps : List (Entry .seqParameterSet)
  ppsCount : UInt8
  pps : List (Entry .picParameterSet)
  extension : Option ExtensionLayout
  tail : Bytes
  spsCount_eq : spsCount.toNat % 32 = sps.length
  ppsCount_eq : ppsCount.toNat = pps.length
  extended : extension ≠ none → profileIdc.toNat ∈ extensionIdcs
  unextended : extension = none → profileIdc.toNat ∈ extensionIdcs → tail = []

namespace RecordLayout

variable (layout : RecordLayout)

/-- The six bytes before the first entry. -/
def header : Bytes :=
  [1, layout.profileIdc, layout.compatibility, layout.levelIdc, layout.lengthSize, layout.spsCount]

/-- The entries of sequence parameter sets. -/
def spsBytes : Bytes :=
  layout.sps.flatMap Entry.stored

/-- The entries of picture parameter sets. -/
def ppsBytes : Bytes :=
  layout.pps.flatMap Entry.stored

/-- The extension part, if there is one. -/
def extensionBytes : Bytes :=
  (layout.extension.map ExtensionLayout.bytes).getD []

/-- The data that a layout is of. -/
def bytes : Bytes :=
  layout.header ++ (layout.spsBytes ++
    ([layout.ppsCount] ++ (layout.ppsBytes ++ (layout.extensionBytes ++ layout.tail))))

/-- The place of the first picture parameter set. -/
def ppsStart : Nat :=
  headerLength + layout.spsBytes.length + 1

/-- The place where the extension part is, or would be. -/
def extensionStart : Nat :=
  layout.ppsStart + layout.ppsBytes.length

/-- The record of a layout. -/
def config : DecoderConfig where
  version := 1
  profileIdc := layout.profileIdc.toNat
  compatibility := { value := layout.compatibility.toNat }
  levelIdc := layout.levelIdc.toNat
  lengthSizeMinusOne := layout.lengthSize.toNat % 4
  spsCount := layout.spsCount.toNat % 32
  sps := unitsFrom headerLength layout.sps
  pps := unitsFrom layout.ppsStart layout.pps
  extension := layout.extension.map fun part => part.config layout.extensionStart

end RecordLayout

/-! ## The extension part -/

variable (total : Nat)

theorem readExtension_none {profileIdc : Nat} {cursor : Cursor}
    (h : profileIdc ∈ extensionIdcs → cursor.rest = []) :
    readExtension total profileIdc cursor = .ok none := by
  have hnone : (!extensionIdcs.contains profileIdc || cursor.rest.isEmpty) = true := by
    by_cases hprofile : profileIdc ∈ extensionIdcs
    · rw [h hprofile, List.isEmpty_nil, Bool.or_true]
    · rw [Bool.or_eq_true, Bool.not_eq_true', List.contains_eq_mem, decide_eq_false_iff_not]
      exact .inl hprofile
  rw [readExtension, if_pos hnone]
  rfl

theorem readExtension_of_mem {profileIdc : Nat} {cursor : Cursor}
    (hprofile : profileIdc ∈ extensionIdcs) (hrest : cursor.rest ≠ []) :
    readExtension total profileIdc cursor = (do
      let (fields, cursor) ← take total 4 cursor
      let (spsExtensions, _) ←
        readEntries total .seqParameterSetExtension (byteAt fields 3) cursor
      return some {
        chromaFormat := byteAt fields 0 % 4
        bitDepthLumaMinus8 := byteAt fields 1 % 8
        bitDepthChromaMinus8 := byteAt fields 2 % 8
        spsExtensions }) := by
  have hsome : ¬(!extensionIdcs.contains profileIdc || cursor.rest.isEmpty) = true := by
    rw [Bool.or_eq_true, not_or, Bool.not_eq_true', List.contains_eq_mem, decide_eq_false_iff_not,
      List.isEmpty_iff, not_not]
    exact ⟨hprofile, hrest⟩
  rw [readExtension, if_neg hsome]

theorem readExtension_bytes {profileIdc : Nat} (hprofile : profileIdc ∈ extensionIdcs)
    (extension : ExtensionLayout) (offset : Nat) (tail : Bytes) :
    readExtension total profileIdc ⟨offset, extension.bytes ++ tail⟩ =
      .ok (some (extension.config offset)) := by
  have hfields := take_append total extension.fields
    (extension.entries.flatMap Entry.stored ++ tail) offset
  rw [readExtension_of_mem total hprofile (List.cons_ne_nil _ _), ExtensionLayout.bytes,
    List.append_assoc]
  show (take total extension.fields.length _ >>= _) = _
  rw [hfields]
  show (readEntries total .seqParameterSetExtension extension.count.toNat _ >>= _) = _
  rw [extension.count_eq, readEntries_stored]
  rfl

theorem readExtension_cases (profileIdc : Nat) (cursor : Cursor) :
    (∃ (extension : Option ExtensionLayout) (tail : Bytes),
        cursor.rest = (extension.map ExtensionLayout.bytes).getD [] ++ tail ∧
          (extension ≠ none → profileIdc ∈ extensionIdcs) ∧
          (extension = none → profileIdc ∈ extensionIdcs → tail = [])) ∨
      Misframed (readExtension total profileIdc cursor) := by
  by_cases hnone : profileIdc ∈ extensionIdcs → cursor.rest = []
  · exact .inl ⟨none, cursor.rest, rfl, fun h => absurd rfl h, fun _ => hnone⟩
  obtain ⟨hprofile, hrest⟩ := Classical.not_imp.mp hnone
  rw [readExtension_of_mem total hprofile hrest]
  obtain ⟨offset, data⟩ := cursor
  obtain ⟨fields, body, hlength, rfl, hfields⟩ | hshort := take_cases total 4 offset data
  swap
  · exact .inr (hshort.bind _)
  rw [hfields]
  match fields, hlength with
  | [chromaFormat, bitDepthLuma, bitDepthChroma, count], _ =>
    obtain ⟨entries, tail, hcount, rfl⟩ | hbad :=
      readEntries_cases total .seqParameterSetExtension count.toNat ⟨offset + 4, body⟩
    swap
    · exact .inr (hbad.bind _)
    exact .inl ⟨some ⟨chromaFormat, bitDepthLuma, bitDepthChroma, count, entries, hcount.symm⟩,
      tail, (List.append_assoc _ _ _).symm, fun _ => hprofile, nofun⟩

theorem readExtension_layout (layout : RecordLayout) :
    readExtension total layout.profileIdc.toNat
        ⟨layout.extensionStart, layout.extensionBytes ++ layout.tail⟩ =
      .ok layout.config.extension := by
  rw [RecordLayout.extensionBytes, RecordLayout.config]
  cases hpart : layout.extension with
  | none => exact readExtension_none total (layout.unextended hpart)
  | some part =>
    have hprofile := layout.extended (hpart ▸ Option.some_ne_none part)
    exact readExtension_bytes total hprofile part layout.extensionStart layout.tail

/-! ## Records -/

/-- A layout is read as the record that it is of. -/
theorem ofBytes_bytes (layout : RecordLayout) : ofBytes layout.bytes = .ok layout.config := by
  -- each part is read, and what follows it is where the next one starts
  have hheader : take layout.bytes.length headerLength _ = _ :=
    take_append layout.bytes.length layout.header (layout.spsBytes ++
      ([layout.ppsCount] ++ (layout.ppsBytes ++ (layout.extensionBytes ++ layout.tail)))) 0
  have hsps := readEntries_stored layout.bytes.length .seqParameterSet layout.sps headerLength
    ([layout.ppsCount] ++ (layout.ppsBytes ++ (layout.extensionBytes ++ layout.tail)))
  have hcount : take layout.bytes.length 1 _ = _ :=
    take_append layout.bytes.length [layout.ppsCount]
      (layout.ppsBytes ++ (layout.extensionBytes ++ layout.tail))
      (headerLength + layout.spsBytes.length)
  have hpps := readEntries_stored layout.bytes.length .picParameterSet layout.pps layout.ppsStart
    (layout.extensionBytes ++ layout.tail)
  rw [← layout.spsCount_eq] at hsps
  rw [← layout.ppsCount_eq] at hpps
  unfold ofBytes
  show (take layout.bytes.length headerLength ⟨0, layout.header ++ _⟩ >>= _) = _
  rw [hheader]
  show (readEntries layout.bytes.length .seqParameterSet (layout.spsCount.toNat % 32)
    ⟨headerLength, _⟩ >>= _) = _
  rw [RecordLayout.spsBytes, hsps, ok_bind, ← RecordLayout.spsBytes]
  dsimp only
  rw [hcount, ok_bind]
  show (readEntries layout.bytes.length .picParameterSet layout.ppsCount.toNat
    ⟨layout.ppsStart, _⟩ >>= _) = _
  rw [RecordLayout.ppsBytes, hpps]
  show (readExtension layout.bytes.length layout.profileIdc.toNat
    ⟨layout.extensionStart, _⟩ >>= _) = _
  rw [readExtension_layout]
  rfl

/-- Data that no layout is of is an error of framing. -/
theorem ofBytes_cases (data : Bytes) :
    (∃ layout : RecordLayout, layout.bytes = data) ∨ Misframed (ofBytes data) := by
  unfold ofBytes
  dsimp only
  -- every error names the length of all data, whatever it is
  generalize data.length = total
  obtain ⟨header, body, hlength, rfl, hheader⟩ | hshort := take_cases total headerLength 0 data
  swap
  · exact .inr (hshort.bind _)
  rw [hheader]
  match header, hlength with
  | [version, profileIdc, compatibility, levelIdc, lengthSize, spsCount], _ =>
    show _ ∨ Misframed (if version.toNat ≠ 1 then _ else _)
    by_cases hversion : version.toNat = 1
    swap
    · rw [if_pos hversion]
      exact .inr ⟨_, rfl, rfl⟩
    obtain rfl : version = 1 := UInt8.toNat_inj.mp hversion
    rw [if_neg (not_not.mpr hversion)]
    show _ ∨ Misframed (readEntries total .seqParameterSet (spsCount.toNat % 32)
      ⟨headerLength, body⟩ >>= _)
    obtain ⟨sps, body, hsps, rfl⟩ | hbad :=
      readEntries_cases total .seqParameterSet (spsCount.toNat % 32) ⟨headerLength, body⟩
    swap
    · exact .inr (hbad.bind _)
    rw [← hsps, readEntries_stored, ok_bind]
    dsimp only
    obtain ⟨count, body, hlength, rfl, hcount⟩ | hshort := take_cases total 1 _ body
    swap
    · exact .inr (hshort.bind _)
    obtain ⟨ppsCount, rfl⟩ := List.length_eq_one_iff.mp hlength
    rw [hcount, ok_bind]
    show _ ∨ Misframed (readEntries total .picParameterSet ppsCount.toNat ⟨_, body⟩ >>= _)
    obtain ⟨pps, body, hpps, rfl⟩ | hbad :=
      readEntries_cases total .picParameterSet ppsCount.toNat ⟨_, body⟩
    swap
    · exact .inr (hbad.bind _)
    rw [← hpps, readEntries_stored]
    show _ ∨ Misframed (readExtension total profileIdc.toNat ⟨_, body⟩ >>= _)
    obtain ⟨extension, tail, rfl, hextended, hunextended⟩ | hbad :=
      readExtension_cases total profileIdc.toNat ⟨_, body⟩
    swap
    · exact .inr (hbad.bind _)
    exact .inl ⟨⟨profileIdc, compatibility, levelIdc, lengthSize, spsCount, sps, ppsCount, pps,
      extension, tail, hsps.symm, hpps.symm, hextended, hunextended⟩, rfl⟩

/-- A record comes from a layout of its data. -/
theorem exists_layout {data : Bytes} {config : DecoderConfig} (h : ofBytes data = .ok config) :
    ∃ layout : RecordLayout, layout.bytes = data ∧ layout.config = config := by
  obtain ⟨layout, rfl⟩ | ⟨error, herror, -⟩ := ofBytes_cases data
  · rw [ofBytes_bytes] at h
    exact ⟨layout, rfl, Except.ok.inj h⟩
  · rw [herror] at h
    cases h

end DecoderConfig

end H264
