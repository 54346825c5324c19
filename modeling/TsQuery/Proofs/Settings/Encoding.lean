import Mathlib
import TsQuery.Proofs.Disk.Walk
import TsQuery.Proofs.Json.Grammar
import TsQuery.Proofs.Json.Nesting
import TsQuery.Proofs.Settings.InForce
import TsQuery.Settings.File

/-!
# The bytes of stored settings

The bytes that settings are stored as describe the settings (`SettingsFile.load_of_view`): the
written text is ASCII without carriage returns, so decoding gives it back (`Utf8.decode_encode`),
and it reads back as it was written; as it is one object without others within it, reading never
breaks off (`Settings.overflowOfBytes?_encode`).
-/

namespace TsQuery

/-! ### ASCII -/

namespace Utf8

/-- The byte of an ASCII character begins and ends the character. -/
theorem decodeFrom_cons {c : CodePoint} (hc : c.toNat < 0x80) (position : Nat) (bytes : Bytes) :
    decodeFrom position [] 0 0 (encodeChar c ++ bytes) =
      (decodeFrom (position + 1) [] 0 0 bytes).map (c :: ·) := by
  have hbyte : (UInt8.ofNat c.toNat).toNat = c.toNat := by
    rw [UInt8.toNat_ofNat']
    omega
  have hlead : lead? (UInt8.ofNat c.toNat) = some (0, c.toNat) := by
    unfold lead?
    dsimp only
    rw [hbyte, if_pos hc]
  have hencode : encodeChar c = [UInt8.ofNat c.toNat] := by
    unfold encodeChar
    dsimp only
    rw [if_pos hc]
  rw [hencode, List.singleton_append, decodeFrom, hlead]
  simp only [CodePoint.ofNat_toNat, Except.map]

/-- The bytes of an ASCII text decode to the text. -/
theorem decode_encode {text : Text} (h : ∀ c ∈ text, c.toNat < 0x80) :
    decode (encode text) = .ok text := by
  have hfrom : ∀ position, decodeFrom position [] 0 0 (encode text) = .ok text := by
    induction text with
    | nil => exact fun _ => rfl
    | cons c text ih =>
      obtain ⟨hc, htext⟩ := List.forall_mem_cons.1 h
      intro position
      rw [encode, List.flatMap_cons, decodeFrom_cons hc]
      have hrest := ih htext (position + 1)
      rw [encode] at hrest
      rw [hrest]
      rfl
  exact hfrom 0

end Utf8

/-- A text without carriage returns is left as it is. -/
theorem Text.withLineFeeds_eq_self {text : Text} (h : .char '\r' ∉ text) :
    text.withLineFeeds = text := by
  induction text with
  | nil => rfl
  | cons c text ih =>
    rw [List.mem_cons, not_or] at h
    have hne : c ≠ .char '\r' := Ne.symm h.1
    rw [withLineFeeds.eq_3 c text (fun _ heq _ => hne heq), if_neg hne, ih h.2]

/-- A file with more opening brackets than arrays can be within each other is not read to
its end. -/
theorem Json.overflowOfBytes?_replicate {count : Nat} (h : Json.maxNesting < count) :
    Json.overflowOfBytes? (Utf8.encode (List.replicate count (.char '['))) = some (.char '[') := by
  have hascii : ∀ c ∈ List.replicate count (CodePoint.char '['), c.toNat < 0x80 := by
    intro c hc
    rw [List.eq_of_mem_replicate hc]
    decide
  have hreturn : .char '\r' ∉ List.replicate count (CodePoint.char '[') := fun hmem =>
    absurd (List.eq_of_mem_replicate hmem) (by decide)
  have hoverflow := Json.overflow?_replicate h []
  obtain ⟨count, rfl⟩ := Nat.exists_eq_succ_of_ne_zero (Nat.ne_zero_of_lt h)
  rw [List.append_nil] at hoverflow
  rw [Json.overflowOfBytes?, Utf8.decode_encode hascii]
  dsimp only
  rw [Text.withLineFeeds_eq_self hreturn, List.replicate_succ, Json.skip_cons (by decide)]
  exact hoverflow

/-! ### Settings -/

namespace Settings

variable {settings : Settings}

/-- Settings as they are written. -/
theorem write_toJson (settings : Settings) :
    settings.toJson.write = Text.ofString "\x7b\n  \"max_query_length\": " ++
      (Numeral.write settings.maxQueryLength ++ Text.ofString "\n\x7d") := by
  have hkey : Json.writeString limitKey = Text.ofString "\"max_query_length\"" := by decide
  have hmember : Json.memberText 1 limitKey (.int settings.maxQueryLength) =
      Text.ofString "\"max_query_length\": " ++ Numeral.write settings.maxQueryLength := by
    rw [Json.memberText, hkey, Json.writeAt]
    rfl
  have hmembers : settings.toJson.write = Json.enclose 0 '\x7b' '\x7d'
      [Json.memberText 1 limitKey (.int settings.maxQueryLength)] ++ [] := by
    rw [List.append_nil]
    rfl
  rw [hmembers, Json.enclose_append, Json.joined_singleton, hmember, List.append_assoc]
  rfl

/-- Settings are written in ASCII, without carriage returns. -/
theorem isAscii_write_toJson (settings : Settings) :
    ∀ c ∈ settings.toJson.write, c.toNat < 0x80 ∧ c ≠ .char '\r' := by
  have hsigns : ∀ c ∈ ['-', '+', '.', 'e', 'E'],
      (CodePoint.char c).toNat < 0x80 ∧ CodePoint.char c ≠ .char '\r' := by simp [CodePoint.toNat]
  have hnumeral : ∀ c ∈ Numeral.write settings.maxQueryLength,
      c.toNat < 0x80 ∧ c ≠ .char '\r' := by
    obtain ⟨number, hnumber, -, -⟩ := Json.exists_number_int settings.maxQueryLength
    rw [hnumber, Text.ofChars, List.forall_mem_map]
    intro c hc
    rcases Json.Number.mem_chars hc with hdigit | hsign
    · have hrange : 48 ≤ c.toNat ∧ c.toNat ≤ 57 := by
        simpa [Char.isDigit, UInt32.le_iff_toNat_le] using hdigit
      refine ⟨Nat.lt_of_le_of_lt hrange.2 (by decide), ?_⟩
      rintro ⟨⟩
      exact absurd hdigit (by decide)
    · exact hsigns c hsign
  have hbefore : ∀ c ∈ Text.ofString "\x7b\n  \"max_query_length\": ",
      c.toNat < 0x80 ∧ c ≠ .char '\r' := by decide
  have hafter : ∀ c ∈ Text.ofString "\n\x7d", c.toNat < 0x80 ∧ c ≠ .char '\r' := by decide
  rw [write_toJson]
  exact List.forall_mem_append.2 ⟨hbefore, List.forall_mem_append.2 ⟨hnumeral, hafter⟩⟩

/-- Whether the limit of settings has no more digits than can be read. -/
def IsReadable (settings : Settings) : Prop :=
  (Nat.toDigits 10 settings.maxQueryLength.natAbs).length ≤ maxDigits

instance (settings : Settings) : Decidable settings.IsReadable :=
  inferInstanceAs (Decidable (_ ≤ _))

/-- A limit in range has no more digits than can be read. -/
theorem isReadable_of_inRange (h : InRange settings.maxQueryLength) : settings.IsReadable := by
  have hbound : settings.maxQueryLength.natAbs < 10 ^ 6 := by
    have hmax : settings.maxQueryLength ≤ 100000 := h.2
    have hmin := h.1
    omega
  exact (Nat.toDigits_length 10 _ 6 (by decide) hbound).trans (by decide)

/-- Settings that are not too long to be read are fit to be written. -/
theorem isFit_toJson (h : settings.IsReadable) : settings.toJson.IsFit :=
  .object (List.nodup_singleton _) (List.forall_mem_singleton.2 (.int h))

/-- The bytes of settings decode to the settings as they are written. -/
theorem decode_encode (settings : Settings) :
    Utf8.decode (SettingsFile.encode settings) = .ok settings.toJson.write :=
  Utf8.decode_encode fun c hc => (isAscii_write_toJson settings c hc).1

theorem withLineFeeds_write (settings : Settings) :
    settings.toJson.write.withLineFeeds = settings.toJson.write :=
  Text.withLineFeeds_eq_self fun hmem => (isAscii_write_toJson settings _ hmem).2 rfl

/-- The bytes of settings that are not too long to be read are the JSON of the settings. -/
theorem ofBytes_encode (h : settings.IsReadable) :
    Json.ofBytes (SettingsFile.encode settings) = .ok settings.toJson := by
  have hpaired : settings.toJson.paired = settings.toJson := by
    rw [Json.paired_eq_self]
    exact List.forall_mem_singleton.2 (Text.isPaired_ofChars _)
  rw [Json.ofBytes, decode_encode]
  dsimp only
  rw [withLineFeeds_write, Json.read_write (isFit_toJson h), hpaired]

/-- Settings are one object without others within it. -/
theorem overflowOfBytes?_encode (h : settings.IsReadable) :
    Json.overflowOfBytes? (SettingsFile.encode settings) = none := by
  obtain ⟨c, text, hcons, hblank, -, -⟩ := (isFit_toJson h).exists_writeAt_eq_cons 0
  have hskip : Json.skip settings.toJson.write = settings.toJson.write := by
    rw [Json.write, hcons]
    exact Json.skip_cons hblank text
  have hnesting : settings.toJson.nesting = 1 := rfl
  rw [Json.overflowOfBytes?, decode_encode]
  dsimp only
  rw [withLineFeeds_write, hskip, Json.overflow?_write (isFit_toJson h), hnesting]
  decide

/-- The bytes of settings in range describe the settings. -/
theorem describedByBytes?_encode (h : InRange settings.maxQueryLength) :
    describedByBytes? (SettingsFile.encode settings) = some settings.maxQueryLength := by
  rw [describedByBytes?, ofBytes_encode (isReadable_of_inRange h)]
  exact (described?_limit settings.maxQueryLength).trans (if_pos h)

end Settings

namespace SettingsFile

variable {file : SettingsFile} {settings : Settings} {disk other : Disk}

/-- A settings file holds the bytes that are seen of it. -/
theorem holds_of_view {bytes : Bytes} (hview : disk.view file.path = .ok (.file bytes)) :
    file.Holds disk (some bytes) :=
  .present (by rw [Disk.holds_eq, hview]) (by rw [Disk.read_eq, hview])

/-- Settings in range are loaded from a file in which they are seen. -/
theorem load_of_view (h : Settings.InRange settings.maxQueryLength)
    (hview : disk.view file.path = .ok (.file (encode settings))) :
    ∃ log, file.load disk = .ok (some settings, log) := by
  have hnesting := Settings.overflowOfBytes?_encode (Settings.isReadable_of_inRange h)
  obtain ⟨log, hload⟩ := (holds_of_view hview).load_eq hnesting
  rw [Option.bind_some, Settings.describedByBytes?_encode h] at hload
  exact ⟨log, hload⟩

/-- The same is loaded where the same is seen. -/
theorem load_congr (hview : other.view file.path = disk.view file.path) :
    file.load other = file.load disk := by
  unfold load content?
  rw [Disk.holds_eq, Disk.read_eq, hview, ← Disk.holds_eq, ← Disk.read_eq]

end SettingsFile

end TsQuery
