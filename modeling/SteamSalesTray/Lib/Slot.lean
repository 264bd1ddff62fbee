import Mathlib.Data.List.Basic

/-! A slot that a writer overwrites, and a reader that looks at it once for each signal.

Signals carry nothing, so a reader that is late sees what is in the slot by then.  If the writer
waits for the signals that are under way, what is read is what was written. -/

namespace Interaction

/-- The content, the signals under way, whether the signal for the content has still to be sent,
and all that was seen and written, the oldest first. -/
structure Slot (τ : Type) where
  content : Option τ
  signals : Nat
  unannounced : Bool
  seen : List τ
  written : List τ

namespace Slot

variable {τ : Type} {s : Slot τ}

def write (s : Slot τ) (content : Option τ) : Slot τ :=
  { s with content := content, unannounced := true, written := s.written ++ content.toList }

def announce (s : Slot τ) : Slot τ := { s with signals := s.signals + 1, unannounced := false }

def read (s : Slot τ) : Slot τ :=
  { s with signals := s.signals - 1, seen := s.seen ++ s.content.toList }

/-- How often the reader will still look at the slot. -/
def due (s : Slot τ) : Nat := s.signals + s.unannounced.toNat

/-- What the operations keep when the writer writes only where it is allowed. -/
structure Law (allows : Slot τ → Option τ → Prop) (P : Slot τ → Prop) : Prop where
  write : ∀ s content, allows s content → P s → P (s.write content)
  announce : ∀ s, s.unannounced = true → P s → P s.announce
  read : ∀ s, 0 < s.signals → P s → P s.read

theorem due_write (content : Option τ) : (s.write content).due = s.signals + 1 := rfl

theorem due_announce (h : s.unannounced = true) : s.announce.due = s.due := by
  simp [due, announce, h]

theorem due_read (h : 0 < s.signals) : s.read.due + 1 = s.due := by
  simp only [due, read]
  omega

def Latest (s : Slot τ) : Prop := s.due = 0 → s.content.toList <:+ s.seen

theorem latest_law : Law (fun _ _ => True) (Latest (τ := τ)) where
  write s content _ _ hdue := by
    rw [due_write] at hdue
    omega
  announce s h hs hdue := hs (due_announce h ▸ hdue)
  read s _ _ _ := List.suffix_append _ _

/-- All that was written was seen once and in order, but for the content if it is still to be
seen. -/
structure Faithful (s : Slot τ) : Prop where
  seen : s.written = s.seen ++ if s.due = 0 then [] else s.content.toList
  single : s.content ≠ none → s.due ≤ 1

/-- Nothing is under way, or there is nothing to see before and after. -/
def Prompt (s : Slot τ) (content : Option τ) : Prop :=
  s.due = 0 ∨ s.content = none ∧ content = none

theorem faithful_law : Law Prompt (Faithful (τ := τ)) where
  write := by
    rintro s content (hdue | ⟨hnone, rfl⟩) hs
    · have hseen := hs.seen
      rw [if_pos hdue] at hseen
      refine ⟨?_, fun _ => ?_⟩
      · rw [if_neg (by rw [due_write]; omega)]
        simp [write, hseen]
      · rw [due_write]
        simp only [due] at hdue
        omega
    · refine ⟨?_, fun h => absurd rfl h⟩
      simpa [write, hnone] using hs.seen
  announce s h hs :=
    ⟨by rw [due_announce h]; exact hs.seen, fun hc => by rw [due_announce h]; exact hs.single hc⟩
  read := by
    rintro s hpos hs
    have hdue := due_read hpos
    refine ⟨?_, fun hc => ?_⟩
    · have hseen := hs.seen
      rw [if_neg (by omega)] at hseen
      cases hcontent : s.content with
      | none => simpa [read, hcontent] using hseen
      | some c =>
        have hone := hs.single (by simp [hcontent])
        rw [if_pos (by omega)]
        simpa [read] using hseen
    · have := hs.single hc
      omega

end Slot

end Interaction
