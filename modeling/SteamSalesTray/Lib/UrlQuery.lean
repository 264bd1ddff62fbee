import Mathlib.Data.List.Basic
import Mathlib.Data.List.TakeWhile

/-! The query of a URL: parts between `&`, each a name and a percent-encoded value on the two sides
of its first `=`.

With an encoder whose texts are free of `&` and decode to what was encoded, a query that joins
named values is read back as these values, so that no two lists of values have the same query. -/

namespace UrlQuery

/-- The value of a hexadecimal digit of either case. -/
def hexValue? (c : UInt16) : Option Nat :=
  if 48 ≤ c ∧ c ≤ 57 then some (c.toNat - 48)
  else if 65 ≤ c ∧ c ≤ 70 then some (c.toNat - 55)
  else if 97 ≤ c ∧ c ≤ 102 then some (c.toNat - 87)
  else none

/-- The bytes that an encoded text stands for, unless a `%` is not followed by two digits or a
character is no ASCII. -/
def percentDecode : List UInt16 → Option (List UInt8)
  | [] => some []
  | c :: rest =>
    if c = 37 then
      match rest with
      | high :: low :: rest =>
        (hexValue? high).bind fun high => (hexValue? low).bind fun low =>
          (percentDecode rest).map (UInt8.ofNat (16 * high + low) :: ·)
      | _ => none
    else if c < 128 then (percentDecode rest).map (c.toUInt8 :: ·)
    else none

theorem percentDecode_plain {c : UInt16} (hpercent : c ≠ 37) (hascii : c < 128)
    (rest : List UInt16) :
    percentDecode (c :: rest) = (percentDecode rest).map (c.toUInt8 :: ·) := by
  rw [percentDecode.eq_def]
  simp only [if_neg hpercent, if_pos hascii]

theorem percentDecode_digits {c d : UInt16} {high low : Nat} (hc : hexValue? c = some high)
    (hd : hexValue? d = some low) (rest : List UInt16) :
    percentDecode (37 :: c :: d :: rest) =
      (percentDecode rest).map (UInt8.ofNat (16 * high + low) :: ·) := by
  rw [percentDecode.eq_def]
  simp only [if_true, hc, hd, Option.bind_some]

/-- The two sides of the first `=`. -/
def splitPair (part : List UInt16) : List UInt16 × List UInt16 :=
  (part.takeWhile (· ≠ 61), (part.dropWhile (· ≠ 61)).tail)

/-- The names of a query and their decoded values, in order. -/
def queryPairs (query : List UInt16) : List (List UInt16 × Option (List UInt8)) :=
  (query.splitOn 38).map fun part => ((splitPair part).1, percentDecode (splitPair part).2)

section Join

variable (encode : List UInt8 → List UInt16)

def joinPairs (pairs : List (List UInt16 × List UInt8)) : List UInt16 :=
  [38].intercalate (pairs.map fun p => p.1 ++ 61 :: encode p.2)

theorem joinPairs_singleton (p : List UInt16 × List UInt8) :
    joinPairs encode [p] = p.1 ++ 61 :: encode p.2 := List.intercalate_singleton

theorem joinPairs_cons (p : List UInt16 × List UInt8) {pairs : List (List UInt16 × List UInt8)}
    (h : pairs ≠ []) :
    joinPairs encode (p :: pairs) = p.1 ++ 61 :: encode p.2 ++ 38 :: joinPairs encode pairs := by
  rw [joinPairs, List.map_cons, List.intercalate_cons_of_ne_nil (by simpa using h),
    List.append_assoc]
  rfl

theorem splitPair_append {name : List UInt16} (h : 61 ∉ name) (value : List UInt16) :
    splitPair (name ++ 61 :: value) = (name, value) := by
  have hname : ∀ c ∈ name, decide (c ≠ 61) = true := fun c hc =>
    decide_eq_true fun hsame => h (hsame ▸ hc)
  rw [splitPair, List.takeWhile_append_of_pos hname, List.dropWhile_append_of_pos hname]
  simp

variable {encode} (hdecode : ∀ value, percentDecode (encode value) = some value)
  (hseparator : ∀ value, 38 ∉ encode value)
include hdecode hseparator

/-- A query of named values is read back as these names and values. -/
theorem queryPairs_joinPairs {pairs : List (List UInt16 × List UInt8)} (hsome : pairs ≠ [])
    (hnames : ∀ p ∈ pairs, 38 ∉ p.1 ∧ 61 ∉ p.1) :
    queryPairs (joinPairs encode pairs) = pairs.map fun p => (p.1, some p.2) := by
  have hparts : ∀ part ∈ pairs.map (fun p => p.1 ++ 61 :: encode p.2), 38 ∉ part := by
    intro part hpart
    obtain ⟨p, hp, rfl⟩ := List.mem_map.mp hpart
    simp [(hnames p hp).1, hseparator p.2]
  rw [queryPairs, joinPairs, List.splitOn_intercalate 38 hparts (by simpa using hsome),
    List.map_map]
  refine List.map_congr_left fun p hp => ?_
  rw [Function.comp_apply, splitPair_append (hnames p hp).2, hdecode]

theorem joinPairs_inj {pairs pairs' : List (List UInt16 × List UInt8)} (hsome : pairs ≠ [])
    (hsome' : pairs' ≠ []) (hnames : ∀ p ∈ pairs, 38 ∉ p.1 ∧ 61 ∉ p.1)
    (hnames' : ∀ p ∈ pairs', 38 ∉ p.1 ∧ 61 ∉ p.1) :
    joinPairs encode pairs = joinPairs encode pairs' ↔ pairs = pairs' := by
  refine ⟨fun h => ?_, congrArg _⟩
  have hpairs := congrArg queryPairs h
  rw [queryPairs_joinPairs hdecode hseparator hsome hnames,
    queryPairs_joinPairs hdecode hseparator hsome' hnames'] at hpairs
  refine List.map_injective_iff.mpr (fun p p' hp => ?_) hpairs
  obtain ⟨hname, hvalue⟩ := Prod.mk.inj hp
  exact Prod.ext hname (Option.some.inj hvalue)

end Join

end UrlQuery
