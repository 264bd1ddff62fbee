import Mathlib.Data.List.DropRight
import SteamSalesTray.Lib.Search
import SteamSalesTray.Text

/-! Values of the registry, and the one under the `Run` key that starts the program at sign-in. -/

namespace SteamSalesTray.Platform

inductive RegValue where
  | dword (value : UInt32)
  | sz (text : Wide)
  | other
deriving DecidableEq, Repr

namespace StartupManager

variable (exe : Wide)

def buildCommand : Wide :=
  if exe.isEmpty then [] else wide "\"" ++ exe ++ wide "\" --background"

def isEnabled : Option RegValue → Bool
  | some (.sz value) =>
    !value.isEmpty && !exe.isEmpty && (Search.find (value.rdropWhile (· = 0)) exe 0).isSome
  | _ => false

/-- The value is written with the `NUL` that ends it. -/
def enable (value : Option RegValue) : Bool × Option RegValue :=
  if (buildCommand exe).isEmpty then (false, value)
  else (true, some (.sz (buildCommand exe ++ [0])))

def disable (_ : Option RegValue) : Bool × Option RegValue := (true, none)

theorem buildCommand_trimmed {exe : Wide} (h : exe ≠ []) :
    (buildCommand exe ++ [0]).rdropWhile (· = 0) = wide "\"" ++ exe ++ wide "\" --background" := by
  have hcommand : buildCommand exe = wide "\"" ++ exe ++ wide "\" --backgroun" ++ [100] := by
    rw [buildCommand, if_neg (by simpa using h)]
    simp [wide]
  rw [List.rdropWhile_concat_pos _ _ _ (by decide), hcommand,
    List.rdropWhile_concat_neg _ _ _ (by decide)]
  simp [wide]

/-- The program that `enable` enters into the registry is found there again. -/
theorem isEnabled_enable {exe : Wide} (h : exe ≠ []) (value : Option RegValue) :
    isEnabled exe (enable exe value).2 = true := by
  obtain ⟨i, -, hfound⟩ := Search.exists_indexOf (wide "\"") exe
  have hin : Search.find (wide "\"" ++ exe ++ wide "\" --background") exe 0 = some (0 + i) := by
    unfold Search.find
    rw [if_pos (Nat.zero_le _), List.drop_zero, Search.indexOf_append hfound _ h]
    rfl
  have hwritten : (buildCommand exe).isEmpty = false := by
    simp [buildCommand, h, wide]
  rw [enable, if_neg (by simp [hwritten])]
  simp only [isEnabled, buildCommand_trimmed h, hin]
  simp [h]

end StartupManager

end SteamSalesTray.Platform
