import SteamSalesTray.Platform.StringUtil
import SteamSalesTray.Storage.Tables

/-! The lifetime units of each product before and after a pass, and the text that reports the
increases. -/

namespace SteamSalesTray.Sync

open Storage Platform

structure AppLifetime where
  name : Wide
  units : Int
deriving DecidableEq, Repr

/-- The entries of the map, each product once. -/
abbrev Snapshot := List (Int × AppLifetime)

namespace Snapshot

/-- `map[row.appId] = {row.displayName, row.units}`. -/
def assign (map : Snapshot) (row : ProductUnits) : Snapshot :=
  map.filter (fun entry => entry.1 ≠ row.appId) ++ [(row.appId, ⟨row.displayName, row.units⟩)]

def ofRows (rows : List ProductUnits) : Snapshot := rows.foldl assign []

def unitsOf (map : Snapshot) (appId : Int) : Int :=
  ((map.lookup appId).map AppLifetime.units).getD 0

end Snapshot

/-- The increase of one product, from an entry of the later map. -/
def delta (before : Snapshot) (entry : Int × AppLifetime) : Int :=
  entry.2.units - before.unitsOf entry.1

def addLine (before : Snapshot) (acc : Wide × Nat) (entry : Int × AppLifetime) : Wide × Nat :=
  if 0 < delta before entry ∧ acc.2 < 6 then
    (acc.1 ++ (entry.2.name ++ wide ": +" ++ formatThousands (delta before entry) ++ wide "\n"),
      acc.2 + 1)
  else acc

def buildNotification (before after : Snapshot) (todayNet : Int) : Wide :=
  let body := (after.foldl (addLine before) ([], 0)).1
  if body.isEmpty then []
  else body ++ (wide "Today: " ++ formatThousands todayNet ++ wide " net units")

example : buildNotification [(480, ⟨wide "git gud", 3⟩)]
    [(480, ⟨wide "git gud", 5⟩), (481, ⟨wide "MTX", 0⟩)] 2 =
    wide "git gud: +2\nToday: 2 net units" := by decide

/-- What the text says of one product. -/
def productLine (name : Wide) (units : Int) : Wide :=
  name ++ wide ": +" ++ formatThousands units ++ wide "\n"

def todayLine (todayNet : Int) : Wide :=
  wide "Today: " ++ formatThousands todayNet ++ wide " net units"

/-- The entries that increased, in the order of the map. -/
def increases (before after : Snapshot) : Snapshot :=
  after.filter fun entry => 0 < delta before entry

theorem productLine_ne_nil (name : Wide) (units : Int) : productLine name units ≠ [] := by
  have hbreak : wide "\n" ≠ [] := by decide
  simp [productLine, hbreak]

/-- The loop adds a line for each increase until there are six. -/
theorem foldl_addLine (before entries : Snapshot) (text : Wide) (lines : Nat) :
    (entries.foldl (addLine before) (text, lines)).1 = text ++
      ((increases before entries).take (6 - lines)).flatMap fun entry =>
        productLine entry.2.name (delta before entry) := by
  unfold increases
  induction entries generalizing text lines with
  | nil => simp
  | cons entry entries ih =>
    rw [List.foldl_cons]
    by_cases hdelta : 0 < delta before entry
    · rw [List.filter_cons_of_pos (by simpa using hdelta)]
      by_cases hlines : lines < 6
      · rw [addLine, if_pos ⟨hdelta, hlines⟩, ih,
          show 6 - lines = (6 - (lines + 1)) + 1 by omega, List.take_succ_cons]
        simp [productLine]
      · rw [addLine, if_neg fun h => hlines h.2, ih, show 6 - lines = 0 by omega]
        simp
    · rw [addLine, if_neg fun h => hdelta h.1, ih, List.filter_cons_of_neg (by simpa using hdelta)]

theorem buildNotification_eq (before after : Snapshot) (todayNet : Int) :
    buildNotification before after todayNet = if increases before after = [] then [] else
      (((increases before after).take 6).flatMap fun entry =>
        productLine entry.2.name (delta before entry)) ++ todayLine todayNet := by
  unfold buildNotification
  rw [foldl_addLine]
  cases increases before after with
  | nil => rfl
  | cons entry rest =>
    have hline := productLine_ne_nil entry.2.name (delta before entry)
    rw [List.take_succ_cons, List.flatMap_cons, List.nil_append, if_neg (by simp [hline]),
      if_neg (List.cons_ne_nil _ _)]
    rfl

end SteamSalesTray.Sync
