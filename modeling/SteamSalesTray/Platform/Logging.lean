import SteamSalesTray.Lib.Masking
import SteamSalesTray.Text

/-! `RedactSecrets`, which every line of the log passes through. -/

namespace SteamSalesTray.Platform

open Search

/-- What ends a value: `& \t\r\n"'`. -/
def valueDelimiters : Wide := [38, 32, 9, 13, 10, 34, 39]

def keyMasking : Masking UInt16 where
  key := wide "key="
  mask := wide "REDACTED"
  stop c := c ∈ valueDelimiters
  key_ne_nil := by decide
  key_running := by simp [wide, valueDelimiters]
  key_borderless := by decide

/-- The end of the value that starts at `valueStart`. -/
def valueEnd (out : Wide) (valueStart : Nat) : Nat :=
  (findFirstOf out valueDelimiters valueStart).getD out.length

theorem valueEnd_bounds {out : Wide} {valueStart : Nat} (h : valueStart ≤ out.length) :
    valueStart ≤ valueEnd out valueStart ∧ valueEnd out valueStart ≤ out.length := by
  rw [valueEnd, findFirstOf_getD h]
  have hle : (out.drop valueStart).findIdx (· ∈ valueDelimiters) ≤ (out.drop valueStart).length :=
    List.findIdx_le_length
  rw [List.length_drop] at hle
  omega

theorem drop_valueEnd {out : Wide} {valueStart : Nat} (h : valueStart ≤ out.length) :
    out.drop (valueEnd out valueStart) = keyMasking.afterValue (out.drop valueStart) := by
  rw [valueEnd, findFirstOf_getD h, ← List.drop_drop, Masking.afterValue,
    List.dropWhile_eq_drop_findIdx_not]
  simp [keyMasking]

/-- The loop, from the position where it searches next. -/
def redactFrom (out : Wide) (pos : Nat) : Wide :=
  match _h : find out (wide "key=") pos with
  | none => out
  | some found =>
    let valueStart := found + 4
    redactFrom (replace out valueStart (valueEnd out valueStart - valueStart) (wide "REDACTED"))
      (valueStart + 8)
termination_by out.length - pos
decreasing_by
  obtain ⟨hpos, hlength⟩ := find_bound keyMasking.key_ne_nil _h
  have hstart : found + 4 ≤ out.length := hlength
  have hend := valueEnd_bounds hstart
  have hmask : (wide "REDACTED").length = 8 := rfl
  simp only [replace, List.length_append, List.length_take, List.length_drop, hmask]
  omega

def redactSecrets (text : Wide) : Wide := redactFrom text 0

theorem redactFrom_eq {out : Wide} {pos : Nat} (hpos : pos ≤ out.length) :
    redactFrom out pos = out.take pos ++ keyMasking.masked (out.drop pos) := by
  induction out, pos using redactFrom.induct with
  | case1 out pos h =>
    rw [redactFrom.eq_def, h, keyMasking.masked_none (find_none hpos h)]
    exact (List.take_append_drop pos out).symm
  | case2 out pos found h valueStart ih =>
    obtain ⟨i, rfl, hi⟩ := find_some h
    have hstart : valueStart ≤ out.length := (find_bound keyMasking.key_ne_nil h).2
    have hend := valueEnd_bounds hstart
    have htake := take_replace hstart (valueEnd out valueStart - valueStart) (wide "REDACTED")
    have hdrop := drop_replace hstart (valueEnd out valueStart - valueStart) (wide "REDACTED")
    have hnext := le_length_replace hstart (valueEnd out valueStart - valueStart) (wide "REDACTED")
    rw [Nat.add_sub_cancel' hend.1, drop_valueEnd hstart] at hdrop
    rw [redactFrom.eq_def, h, keyMasking.masked_some hi]
    simp only
    have hsplit : valueStart = pos + (i + keyMasking.key.length) := Nat.add_assoc pos i 4
    rw [ih hnext, show (8 : Nat) = (wide "REDACTED").length from rfl, htake, hdrop, hsplit,
      List.take_add, ← List.drop_drop, List.append_assoc, List.append_assoc, List.append_assoc]
    rfl

theorem redactSecrets_eq (text : Wide) : redactSecrets text = keyMasking.masked text :=
  redactFrom_eq (Nat.zero_le text.length)

example :
    redactSecrets (wide "GET /x?key=ABC123&date=2026/07/18") =
      wide "GET /x?key=REDACTED&date=2026/07/18" := by
  decide +kernel

/-- The result is the one text that has the mask for every value of the line and is the line
elsewhere; every key in it is followed by the mask and a delimiter or the end, and to redact it
again changes nothing. -/
theorem redacts_every_value (text : Wide) :
    (∀ out, keyMasking.Masks text out ↔ out = redactSecrets text) ∧
      keyMasking.Covered (redactSecrets text) ∧
      redactSecrets (redactSecrets text) = redactSecrets text := by
  have hstop : ∀ c ∈ keyMasking.mask, keyMasking.stop c = false := by
    simp [keyMasking, wide, valueDelimiters]
  have hmask : ∀ c ∈ keyMasking.mask, c ∉ keyMasking.key := by simp [keyMasking, wide]
  simp only [redactSecrets_eq]
  exact ⟨fun _ => keyMasking.masks_iff, keyMasking.covered_masked hmask text,
    keyMasking.masked_masked hstop hmask text⟩

end SteamSalesTray.Platform
