import SteamSalesTray.Lib.LittleEndian
import SteamSalesTray.Security.AtomicFile

/-! `DpapiSecretStore`: the envelope of the key file, written by `Store` and read by `Load` and by
`HasStoredKey`.  A key file that does not exist or cannot be read is `none`. -/

namespace SteamSalesTray.Security

open Interaction

def kMagic : Bytes := ascii "SSTK"

def kFormatVersion : UInt16 := 1

def kHeaderSize : Nat := 12

def kMaxBlobBytes : Nat := 1 <<< 20

def kEntropy : Bytes := ascii "SteamSalesTray.ApiKey.v1"

/-- `CryptProtectData` and `CryptUnprotectData` of some bytes under an entropy. -/
structure Dpapi where
  protect : Bytes → Bytes → Option Bytes
  unprotect : Bytes → Bytes → Option Bytes

/-- A `DATA_BLOB` counts its bytes in 32 bits, and what was protected under an entropy is got back
under it. -/
structure Dpapi.Documented (dpapi : Dpapi) : Prop where
  fits : ∀ plain entropy blob, dpapi.protect plain entropy = some blob → plain.length < 2 ^ 32
  inverts : ∀ plain entropy blob, dpapi.protect plain entropy = some blob →
    dpapi.unprotect blob entropy = some plain

def readWholeFile (file : Option Bytes) : Option Bytes :=
  match file with
  | none => none
  | some out => if out.length = 0 ∨ kHeaderSize + kMaxBlobBytes < out.length then none else some out

def storeU16 (value : UInt16) : Bytes :=
  [(value &&& 0xFF).toUInt8, ((value >>> 8) &&& 0xFF).toUInt8]

def storeU32 (value : UInt32) : Bytes :=
  [(value &&& 0xFF).toUInt8, ((value >>> 8) &&& 0xFF).toUInt8, ((value >>> 16) &&& 0xFF).toUInt8,
    ((value >>> 24) &&& 0xFF).toUInt8]

def loadU16 (p : Bytes) : UInt16 := (p.getD 0 0).toUInt16 ||| ((p.getD 1 0).toUInt16 <<< 8)

def loadU32 (p : Bytes) : UInt32 :=
  (p.getD 0 0).toUInt32 ||| ((p.getD 1 0).toUInt32 <<< 8) ||| ((p.getD 2 0).toUInt32 <<< 16) |||
    ((p.getD 3 0).toUInt32 <<< 24)

structure DpapiSecretStore where
  filePath : Wide

/-- The file that `Store` writes for a blob. -/
def envelope (blob : Bytes) : Bytes :=
  kMagic ++ storeU16 kFormatVersion ++ storeU16 0 ++ storeU32 (UInt32.ofNat blob.length) ++ blob

namespace DpapiSecretStore

variable (s : DpapiSecretStore)

def store (dpapi : Dpapi) (plaintextUtf8 : Bytes) : FileProgram Bool :=
  if s.filePath.isEmpty ∨ plaintextUtf8.isEmpty then pure false
  else
    -- The size of the key is cast to a `DWORD`.
    match dpapi.protect (plaintextUtf8.take (plaintextUtf8.length % 2 ^ 32)) kEntropy with
    | none => pure false
    | some out =>
      if out.length = 0 ∨ kMaxBlobBytes < out.length then pure false
      else writeFileAtomic (envelope out)

/-- What `Load` passes on to `CryptUnprotectData`, if it gets there. -/
def loadBlob (file : Option Bytes) : Option Bytes :=
  if s.filePath.isEmpty then none
  else
    match readWholeFile file with
    | none => none
    | some file =>
      if file.length < kHeaderSize then none
      else if file.take 4 ≠ kMagic then none
      else if loadU16 (file.drop 4) ≠ kFormatVersion then none
      else
        let blobLen := (loadU32 (file.drop 8)).toNat
        if blobLen = 0 ∨ kMaxBlobBytes < blobLen ∨ file.length ≠ kHeaderSize + blobLen then none
        else some ((file.drop kHeaderSize).take blobLen)

def load (dpapi : Dpapi) (file : Option Bytes) : Bool × Bytes :=
  match s.loadBlob file with
  | none => (false, [])
  | some blob =>
    match dpapi.unprotect blob kEntropy with
    | none => (false, [])
    | some plain => (true, plain)

def hasStoredKey (file : Option Bytes) : Bool :=
  if s.filePath.isEmpty then false
  else
    match readWholeFile file with
    | none => false
    | some file =>
      if file.length < kHeaderSize then false
      else file.take 4 = kMagic ∧ loadU16 (file.drop 4) = kFormatVersion

end DpapiSecretStore

/-! ### Envelopes -/

/-- The file is an envelope with the blob: magic, version 1, two bytes of any value, the length of
the blob in four bytes, and the blob of 1 to 2^20 bytes. -/
def IsEnvelope (file blob : Bytes) : Prop :=
  ∃ reserved length : Bytes, file = ascii "SSTK" ++ [1, 0] ++ reserved ++ length ++ blob ∧
    reserved.length = 2 ∧ length.length = 4 ∧ LittleEndian.value length = blob.length ∧
    1 ≤ blob.length ∧ blob.length ≤ 2 ^ 20

/-- The size limits, the magic and the version are right. -/
structure HeaderPasses (file : Bytes) : Prop where
  header : kHeaderSize ≤ file.length
  limit : file.length ≤ kHeaderSize + kMaxBlobBytes
  magic : file.take 4 = kMagic
  version : loadU16 (file.drop 4) = kFormatVersion

/-- The length field is from 1 to the limit, and the number of the bytes after the header. -/
structure LengthMatches (file : Bytes) : Prop where
  positive : (loadU32 (file.drop 8)).toNat ≠ 0
  limit : (loadU32 (file.drop 8)).toNat ≤ kMaxBlobBytes
  size : file.length = kHeaderSize + (loadU32 (file.drop 8)).toNat

theorem toNat_loadU16 {p : Bytes} (h : 2 ≤ p.length) :
    (loadU16 p).toNat = LittleEndian.value (p.take 2) := by
  match p, h with
  | b :: c :: rest, _ => exact LittleEndian.toNat_word16 b c

theorem toNat_loadU32 {p : Bytes} (h : 4 ≤ p.length) :
    (loadU32 p).toNat = LittleEndian.value (p.take 4) := by
  match p, h with
  | b :: c :: d :: e :: rest, _ => exact LittleEndian.toNat_word32 b c d e

theorem storeU32_eq (n : Nat) : storeU32 (UInt32.ofNat n) = LittleEndian.bytes 4 n := by
  have hbyte : ∀ x : UInt32, (x &&& 0xFF).toUInt8 = UInt8.ofNat x.toNat := by
    intro x
    apply UInt8.toNat_inj.mp
    have hand : x.toNat &&& 0xFF = x.toNat % 256 := Nat.and_two_pow_sub_one_eq_mod x.toNat 8
    rw [UInt32.toNat_toUInt8, UInt32.toNat_and, UInt8.toNat_ofNat']
    show (x.toNat &&& 0xFF) % 256 = x.toNat % 256
    omega
  have hn : (UInt32.ofNat n).toNat = n % 2 ^ 32 := UInt32.toNat_ofNat'
  simp only [storeU32, hbyte, UInt32.toNat_shiftRight, hn, LittleEndian.bytes]
  refine List.ext_getElem rfl fun i hi _ => UInt8.toNat_inj.mp ?_
  replace hi : i < 4 := hi
  obtain rfl | rfl | rfl | rfl : i = 0 ∨ i = 1 ∨ i = 2 ∨ i = 3 := by omega
  · simp
  all_goals
    simp [Nat.shiftRight_eq_div_pow]
    omega

theorem version_iff {file : Bytes} (h : kHeaderSize ≤ file.length) :
    loadU16 (file.drop 4) = kFormatVersion ↔ (file.drop 4).take 2 = [1, 0] := by
  have hlength : 2 ≤ (file.drop 4).length := by
    rw [List.length_drop]
    unfold kHeaderSize at h
    omega
  rw [← UInt16.toNat_inj, toNat_loadU16 hlength]
  constructor
  · exact fun hvalue => LittleEndian.value_injective (by simpa using hlength) hvalue
  · rintro hbytes
    rw [hbytes]
    rfl

theorem exists_header {file : Bytes} (h : kHeaderSize ≤ file.length) :
    ∃ magic version reserved length blob : Bytes,
      file = magic ++ version ++ reserved ++ length ++ blob ∧ magic.length = 4 ∧
        version.length = 2 ∧ reserved.length = 2 ∧ length.length = 4 := by
  unfold kHeaderSize at h
  match file, h with
  | a :: b :: c :: d :: e :: f :: g :: h :: i :: j :: k :: l :: blob, _ =>
    exact ⟨[a, b, c, d], [e, f], [g, h], [i, j, k, l], blob, rfl, rfl, rfl, rfl, rfl⟩

section Parts

variable {magic version reserved length blob : Bytes} (hmagic : magic.length = 4)
  (hversion : version.length = 2) (hreserved : reserved.length = 2) (hlength : length.length = 4)
include hmagic hversion hreserved hlength

theorem length_parts : (magic ++ version ++ reserved ++ length ++ blob).length =
    kHeaderSize + blob.length := by
  simp only [List.length_append, hmagic, hversion, hreserved, hlength]
  rfl

theorem headerPasses_parts :
    HeaderPasses (magic ++ version ++ reserved ++ length ++ blob) ↔
      blob.length ≤ kMaxBlobBytes ∧ magic = kMagic ∧ version = [1, 0] := by
  have hsize : (magic ++ version ++ reserved ++ length ++ blob).length = _ :=
    length_parts hmagic hversion hreserved hlength
  have htake : (magic ++ version ++ reserved ++ length ++ blob).take 4 = magic := by
    simp only [List.append_assoc]
    exact List.take_left' hmagic
  have hdrop : ((magic ++ version ++ reserved ++ length ++ blob).drop 4).take 2 = version := by
    simp only [List.append_assoc]
    rw [List.drop_left' hmagic]
    exact List.take_left' hversion
  have hheader : kHeaderSize ≤ (magic ++ version ++ reserved ++ length ++ blob).length := by
    omega
  have hiff := version_iff hheader
  rw [hdrop] at hiff
  constructor
  · intro h
    have := h.limit
    exact ⟨by omega, htake.symm.trans h.magic, hiff.mp h.version⟩
  · rintro ⟨hlimit, hm, hv⟩
    exact ⟨hheader, by omega, htake.trans hm, hiff.mpr hv⟩

theorem lengthMatches_parts :
    LengthMatches (magic ++ version ++ reserved ++ length ++ blob) ↔
      LittleEndian.value length = blob.length ∧ 1 ≤ blob.length ∧ blob.length ≤ kMaxBlobBytes := by
  have hsize : (magic ++ version ++ reserved ++ length ++ blob).length = _ :=
    length_parts hmagic hversion hreserved hlength
  have hdrop : (magic ++ version ++ reserved ++ length ++ blob).drop 8 = length ++ blob := by
    rw [List.append_assoc _ length]
    exact List.drop_left' (by simp [hmagic, hversion, hreserved])
  have hvalue : (loadU32 (length ++ blob)).toNat = LittleEndian.value length := by
    rw [toNat_loadU32 (by simp [hlength]), List.take_left' hlength]
  constructor
  · rintro ⟨hpositive, hlimit, hlen⟩
    rw [hdrop, hvalue] at hpositive hlimit hlen
    omega
  · rintro ⟨hlen, hpositive, hlimit⟩
    refine ⟨?_, ?_, ?_⟩
    all_goals
      rw [hdrop, hvalue]
      omega

theorem drop_header : (magic ++ version ++ reserved ++ length ++ blob).drop kHeaderSize = blob :=
  List.drop_left' (by simp [hmagic, hversion, hreserved, hlength, kHeaderSize])

end Parts

theorem isEnvelope_iff (file blob : Bytes) :
    IsEnvelope file blob ↔
      HeaderPasses file ∧ LengthMatches file ∧ blob = file.drop kHeaderSize := by
  constructor
  · rintro ⟨reserved, length, rfl, hreserved, hlength, hvalue, hpositive, hlimit⟩
    have hmagic : (ascii "SSTK").length = 4 := rfl
    have hversion : ([1, 0] : Bytes).length = 2 := rfl
    exact ⟨(headerPasses_parts hmagic hversion hreserved hlength).mpr ⟨hlimit, rfl, rfl⟩,
      (lengthMatches_parts hmagic hversion hreserved hlength).mpr ⟨hvalue, hpositive, hlimit⟩,
      (drop_header hmagic hversion hreserved hlength).symm⟩
  · rintro ⟨hheader, hmatches, rfl⟩
    obtain ⟨magic, version, reserved, length, blob, rfl, hmagic, hversion, hreserved, hlength⟩ :=
      exists_header hheader.header
    rw [drop_header hmagic hversion hreserved hlength]
    obtain ⟨-, rfl, rfl⟩ := (headerPasses_parts hmagic hversion hreserved hlength).mp hheader
    obtain ⟨hvalue, hpositive, hlimit⟩ :=
      (lengthMatches_parts hmagic hversion hreserved hlength).mp hmatches
    exact ⟨reserved, length, rfl, hreserved, hlength, hvalue, hpositive, hlimit⟩

theorem isEnvelope_envelope {blob : Bytes} (hpositive : 1 ≤ blob.length)
    (hlimit : blob.length ≤ 2 ^ 20) : IsEnvelope (envelope blob) blob := by
  refine ⟨storeU16 0, storeU32 (UInt32.ofNat blob.length), rfl, rfl, rfl, ?_, hpositive, hlimit⟩
  rw [storeU32_eq, LittleEndian.value_bytes (by omega)]

namespace DpapiSecretStore

variable {s : DpapiSecretStore} (hpath : s.filePath ≠ [])
include hpath

theorem of_loadBlob {file blob : Bytes} (h : s.loadBlob (some file) = some blob) :
    HeaderPasses file ∧ LengthMatches file ∧
      blob = (file.drop kHeaderSize).take (loadU32 (file.drop 8)).toNat := by
  rw [loadBlob, if_neg (by simpa using hpath)] at h
  by_cases hsize : file.length = 0 ∨ kHeaderSize + kMaxBlobBytes < file.length
  · rw [show readWholeFile (some file) = none from if_pos hsize] at h
    cases h
  · rw [show readWholeFile (some file) = some file from if_neg hsize] at h
    simp only at h
    split_ifs at h with hheader hmagic hversion hlength
    push Not at hsize hheader hmagic hversion hlength
    exact ⟨⟨hheader, hsize.2, hmagic, hversion⟩, ⟨hlength.1, hlength.2.1, hlength.2.2⟩,
      (Option.some.inj h).symm⟩

theorem loadBlob_some (file blob : Bytes) :
    s.loadBlob (some file) = some blob ↔ IsEnvelope file blob := by
  rw [isEnvelope_iff]
  have htake : LengthMatches file →
      (file.drop kHeaderSize).take (loadU32 (file.drop 8)).toNat = file.drop kHeaderSize := by
    intro hmatches
    have := hmatches.size
    refine List.take_of_length_le ?_
    rw [List.length_drop]
    omega
  constructor
  · intro h
    obtain ⟨hheader, hmatches, hblob⟩ := of_loadBlob hpath h
    exact ⟨hheader, hmatches, hblob.trans (htake hmatches)⟩
  · rintro ⟨hheader, hmatches, rfl⟩
    have hread : readWholeFile (some file) = some file := if_neg (by
      have := hheader.header
      have := hheader.limit
      unfold kHeaderSize at *
      omega)
    rw [loadBlob, if_neg (by simpa using hpath), hread]
    simp only
    rw [if_neg (Nat.not_lt.mpr hheader.header), if_neg (not_not.mpr hheader.magic),
      if_neg (not_not.mpr hheader.version), if_neg, htake hmatches]
    have := hmatches.positive
    have := hmatches.limit
    have := hmatches.size
    omega

theorem hasStoredKey_some (file : Bytes) :
    s.hasStoredKey (some file) = true ↔ HeaderPasses file := by
  rw [hasStoredKey, if_neg (by simpa using hpath)]
  by_cases hsize : file.length = 0 ∨ kHeaderSize + kMaxBlobBytes < file.length
  · rw [show readWholeFile (some file) = none from if_pos hsize]
    refine iff_of_false nofun fun h => ?_
    have := h.header
    have := h.limit
    unfold kHeaderSize at *
    omega
  · rw [show readWholeFile (some file) = some file from if_neg hsize]
    simp only
    split_ifs with hheader
    · exact iff_of_false nofun fun h => Nat.not_lt.mpr h.header hheader
    · rw [decide_eq_true_eq]
      push Not at hsize hheader
      exact ⟨fun h => ⟨hheader, hsize.2, h.1, h.2⟩, fun h => ⟨h.magic, h.version⟩⟩

theorem store_eq {dpapi : Dpapi} (hdpapi : dpapi.Documented) {key blob : Bytes} (hkey : key ≠ [])
    (hprotect : dpapi.protect key kEntropy = some blob) (hpositive : 1 ≤ blob.length)
    (hlimit : blob.length ≤ 2 ^ 20) : s.store dpapi key = writeFileAtomic (envelope blob) := by
  have hcast : key.take (key.length % 2 ^ 32) = key := by
    rw [Nat.mod_eq_of_lt (hdpapi.fits key kEntropy blob hprotect), List.take_length]
  have hbounds : ¬(blob.length = 0 ∨ kMaxBlobBytes < blob.length) := by
    show ¬(blob.length = 0 ∨ 2 ^ 20 < blob.length)
    omega
  rw [store, if_neg (by simp [hpath, hkey]), hcast, hprotect]
  exact if_neg hbounds

end DpapiSecretStore

/-- A key that is stored is what is loaded; and what gets to decryption are the envelopes and no
other files, each with its blob. -/
theorem key_file_round_trip {dpapi : Dpapi} (hdpapi : dpapi.Documented) {s : DpapiSecretStore}
    (hpath : s.filePath ≠ []) :
    (∀ key blob, key ≠ [] → dpapi.protect key kEntropy = some blob → 1 ≤ blob.length →
      blob.length ≤ 2 ^ 20 → ∀ old tmp,
        (∃ es c, Execution fileRules fileMachine (s.store dpapi key)
          ⟨⟨old, tmp, .closed, []⟩, none⟩ es true c) ∧
        ∀ es c, Execution fileRules fileMachine (s.store dpapi key)
          ⟨⟨old, tmp, .closed, []⟩, none⟩ es true c →
            s.load dpapi c.state.key = (true, key)) ∧
    (∀ file blob, s.loadBlob (some file) = some blob ↔ IsEnvelope file blob) ∧
    (∀ file blob, IsEnvelope file blob → s.load dpapi (some file) =
      ((dpapi.unprotect blob kEntropy).isSome, (dpapi.unprotect blob kEntropy).getD [])) ∧
    ∀ file, (∀ blob, ¬IsEnvelope file blob) → s.load dpapi (some file) = (false, []) := by
  have hblob := DpapiSecretStore.loadBlob_some hpath
  have hload : ∀ file blob, IsEnvelope file blob → s.load dpapi (some file) =
      ((dpapi.unprotect blob kEntropy).isSome, (dpapi.unprotect blob kEntropy).getD []) := by
    intro file blob h
    rw [DpapiSecretStore.load, (hblob file blob).mpr h]
    simp only
    cases dpapi.unprotect blob kEntropy <;> rfl
  refine ⟨fun key blob hkey hprotect hpositive hlimit old tmp => ?_, hblob, hload, ?_⟩
  · rw [DpapiSecretStore.store_eq hpath hdpapi hkey hprotect hpositive hlimit]
    have hlength : (envelope blob).length = kHeaderSize + blob.length :=
      length_parts rfl rfl rfl rfl
    refine ⟨⟨_, _, writeFileAtomic_succeeds old tmp (List.cons_ne_nil _ _) ?_⟩, fun es c h => ?_⟩
    · rw [hlength, kHeaderSize]
      omega
    · rw [writeFileAtomic_returns (whole_start old tmp (envelope blob)) h, if_pos rfl,
        hload _ blob (isEnvelope_envelope hpositive hlimit),
        hdpapi.inverts key kEntropy blob hprotect]
      rfl
  · intro file hno
    have hnone : s.loadBlob (some file) = none := by
      cases hsome : s.loadBlob (some file) with
      | none => rfl
      | some blob => exact absurd ((hblob file blob).mp hsome) (hno blob)
    rw [DpapiSecretStore.load, hnone]

/-- The entropy in front of the plain bytes. -/
def prefixing : Dpapi where
  protect plain entropy := if plain.length < 2 ^ 32 then some (entropy ++ plain) else none
  unprotect blob entropy := if entropy <+: blob then some (blob.drop entropy.length) else none

theorem prefixing_documented : prefixing.Documented where
  fits plain entropy blob h := by
    simp only [prefixing] at h
    split at h
    · assumption
    · cases h
  inverts plain entropy blob h := by
    simp only [prefixing] at h
    split at h
    · obtain rfl := Option.some.inj h
      simp [prefixing]
    · cases h

def keyStore : DpapiSecretStore := ⟨wide "api-key.dat"⟩

theorem key_file_round_trip_prefixing :
    ∃ es c, Execution fileRules fileMachine (keyStore.store prefixing (ascii "ABCD1234"))
        ⟨⟨none, none, .closed, []⟩, none⟩ es true c ∧
      keyStore.load prefixing c.state.key = (true, ascii "ABCD1234") := by
  have hpath : keyStore.filePath ≠ [] := by decide
  obtain ⟨⟨es, c, h⟩, hload⟩ := (key_file_round_trip prefixing_documented hpath).1
    (ascii "ABCD1234") (kEntropy ++ ascii "ABCD1234") (by decide) rfl (by decide)
    (by decide) none none
  exact ⟨es, c, h, hload es c h⟩

/-! ### The two readers of the envelope -/

/-- `HasStoredKey` agrees with the checks of `Load` exactly where the length field is right or the
header is not. -/
theorem hasStoredKey_agrees_iff (s : DpapiSecretStore) (file : Option Bytes) :
    (s.hasStoredKey file = true ↔ (s.loadBlob file).isSome = true) ↔
      (s.filePath ≠ [] →
        ∀ bytes, file = some bytes → HeaderPasses bytes → LengthMatches bytes) := by
  by_cases hpath : s.filePath = []
  · simp [DpapiSecretStore.hasStoredKey, DpapiSecretStore.loadBlob, hpath]
  · cases file with
    | none => simp [DpapiSecretStore.hasStoredKey, DpapiSecretStore.loadBlob, readWholeFile]
    | some bytes =>
      have hload : (s.loadBlob (some bytes)).isSome = true ↔
          HeaderPasses bytes ∧ LengthMatches bytes := by
        simp [Option.isSome_iff_exists, DpapiSecretStore.loadBlob_some hpath, isEnvelope_iff]
      rw [DpapiSecretStore.hasStoredKey_some hpath, hload]
      simp [hpath]

/-- An envelope that is cut short. -/
theorem truncated_key_reported :
    let file := ascii "SSTK" ++ [1, 0, 0, 0, 5, 0, 0, 0] ++ [1, 2, 3, 4]
    keyStore.hasStoredKey (some file) = true ∧ keyStore.loadBlob (some file) = none := by
  decide +kernel

end SteamSalesTray.Security
