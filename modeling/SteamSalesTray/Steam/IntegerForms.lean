import SteamSalesTray.Steam.RecordNames

/-! Integers that a page gives as numbers or as the strings of their digits: which of the two it
is makes no difference to the parser where the integers fit in 64 signed bits. -/

namespace SteamSalesTray.Steam

/-- The integer of a number token. -/
def Json.integer? : Json → Option Int
  | .uint value => some value.toNat
  | .sint value => some value.toInt
  | _ => none

/-- The range of the integer tokens. -/
def IsToken (n : Int) : Prop := -2 ^ 63 ≤ n ∧ n < 2 ^ 64

theorem Json.isToken_of_integer {v : Json} {n : Int} (h : v.integer? = some n) : IsToken n := by
  unfold IsToken
  cases v with
  | uint value =>
    obtain rfl := Option.some.inj h
    have := value.toNat_lt
    omega
  | sint value =>
    obtain rfl := Option.some.inj h
    have := value.toInt_lt
    have := value.le_toInt
    omega
  | _ => cases h

def FitsInt64 (n : Int) : Prop := -2 ^ 63 ≤ n ∧ n < 2 ^ 63

/-! ### The two forms of a field -/

theorem strtoll_decimal (n : Nat) : strtoll (decimal n) = min (n : Int) (2 ^ 63 - 1) := by
  obtain ⟨c, rest, hn⟩ := List.exists_cons_of_ne_nil (decimal_ne_nil n)
  have hdigit : 48 ≤ c ∧ c ≤ 57 := decimal_isDigit (hn ▸ List.mem_cons_self)
  have hspace : (decimal n).dropWhile (fun c => c ∈ ([32, 9, 10, 11, 12, 13] : Bytes)) =
      decimal n := by
    rw [hn]
    refine List.dropWhile_cons_of_neg ?_
    simp only [UInt8.le_iff_toNat_le, UInt8.reduceToNat] at hdigit
    simp only [List.mem_cons, List.not_mem_nil, or_false, ← UInt8.toNat_inj, UInt8.reduceToNat,
      decide_eq_true_eq]
    omega
  have hminus : c ≠ 45 := by
    rintro rfl
    exact absurd hdigit.1 (by decide)
  have hplus : c ≠ 43 := by
    rintro rfl
    exact absurd hdigit.1 (by decide)
  unfold strtoll
  rw [hspace]
  dsimp only
  split
  · rename_i hsign
    exact absurd (List.cons.inj (hn.symm.trans hsign)).1 hminus
  · rename_i hsign
    exact absurd (List.cons.inj (hn.symm.trans hsign)).1 hplus
  · rw [takeWhile_decimal, number_decimal]

theorem strtoll_negative (n : Nat) :
    strtoll (ascii "-" ++ decimal n) = max (-(n : Int)) (-2 ^ 63) := by
  have hspace : (ascii "-" ++ decimal n).dropWhile
      (fun c => c ∈ ([32, 9, 10, 11, 12, 13] : Bytes)) = 45 :: decimal n :=
    List.dropWhile_cons_of_neg (by decide)
  unfold strtoll
  rw [hspace]
  show max (-(number ((decimal n).takeWhile fun c => 48 ≤ c ∧ c ≤ 57) : Int)) (-2 ^ 63) = _
  rw [takeWhile_decimal, number_decimal]

/-- `strtoll` of the digits of any integer: the integer, or the nearer end of the range. -/
theorem strtoll_signedDecimal (n : Int) :
    strtoll (signedDecimal n) = max (-2 ^ 63) (min n (2 ^ 63 - 1)) := by
  unfold signedDecimal
  split
  · rw [strtoll_negative]
    omega
  · rw [strtoll_decimal]
    omega

theorem strtoll_fits {n : Int} (h : FitsInt64 n) : strtoll (signedDecimal n) = n := by
  obtain ⟨hlow, hhigh⟩ := h
  rw [strtoll_signedDecimal]
  omega

theorem getInt64_of_integer {o : JsonObject} {key : String} {v : Json} {n : Int}
    (hget : objGet o key = some v) (hn : v.integer? = some n) :
    getInt64 o key = if n < 2 ^ 63 then n else n - 2 ^ 64 := by
  unfold getInt64
  rw [hget]
  cases v with
  | uint value =>
    obtain rfl := Option.some.inj hn
    have := value.toNat_lt
    have hbits : value.toBitVec.toNat = value.toNat := rfl
    show value.toBitVec.toInt = _
    rw [BitVec.toInt_eq_toNat_cond, hbits]
    split <;> split <;> omega
  | sint value =>
    obtain rfl := Option.some.inj hn
    have := value.toInt_lt
    exact (if_pos this).symm
  | _ => cases hn

/-! ### Pages that differ in the forms of their integers -/

/-- The values are a number and the string of its digits, in either order. -/
inductive OtherForm (P : Int → Prop) : Json → Json → Prop where
  | asText {v : Json} {n : Int} (number : v.integer? = some n) (range : P n) :
    OtherForm P v (.str (signedDecimal n))
  | asNumber {v : Json} {n : Int} (number : v.integer? = some n) (range : P n) :
    OtherForm P (.str (signedDecimal n)) v

/-- The members have the same keys and, where `R` does not relate them, the same values. -/
def Members (R : Bytes → Json → Json → Prop) (o o' : JsonObject) : Prop :=
  List.Forall₂ (fun m m' => m.1 = m'.1 ∧ (m.2 = m'.2 ∨ R m.1 m.2 m'.2)) o o'

inductive Objects (R : Bytes → Json → Json → Prop) : Json → Json → Prop where
  | obj {o o' : JsonObject} (members : Members R o o') : Objects R (.obj o) (.obj o')

inductive Arrays (R : Json → Json → Prop) : Json → Json → Prop where
  | arr {items items' : List Json}
    (elements : List.Forall₂ (fun v v' => v = v' ∨ R v v') items items') :
    Arrays R (.arr items) (.arr items')

def recordIntegers : List String :=
  ["primary_appid", "net_units_sold", "gross_units_sold", "gross_units_returned"]

/-- The integers that are in another form all satisfy `P`. -/
def RecordMember (P : Int → Prop) (key : Bytes) (v v' : Json) : Prop :=
  key ∈ recordIntegers.map ascii ∧ OtherForm P v v'

def EntryMember (P : Int → Prop) (key : Bytes) (v v' : Json) : Prop :=
  key = ascii "appid" ∧ OtherForm P v v'

/-- `max_id` is read as text, so that any integer will do. -/
def ResponseMember (P : Int → Prop) (key : Bytes) (v v' : Json) : Prop :=
  key = ascii "max_id" ∧ OtherForm (fun _ => True) v v' ∨
    key = ascii "app_info" ∧ Arrays (Objects (EntryMember P)) v v' ∨
    key ∈ kRecordArrayKeys.map ascii ∧ Arrays (Objects (RecordMember P)) v v'

def RootMember (P : Int → Prop) (key : Bytes) (v v' : Json) : Prop :=
  key = ascii "response" ∧ Objects (ResponseMember P) v v'

/-- The documents differ at most in the forms of the integers that a page has. -/
def SamePage (P : Int → Prop) : Option Json → Option Json → Prop :=
  Option.Rel fun v v' => v = v' ∨ Objects (RootMember P) v v'

/-! ### What the parser reads of them -/

/-- The two objects have the same member for a key, or members that `R` relates. -/
theorem Members.objGet {R : Bytes → Json → Json → Prop} {o o' : JsonObject} (h : Members R o o')
    (key : String) :
    objGet o key = objGet o' key ∨
      ∃ v v', objGet o key = some v ∧ objGet o' key = some v' ∧ R (ascii key) v v' := by
  unfold Steam.objGet
  induction h with
  | nil => exact .inl rfl
  | @cons m m' o o' hhead _ ih =>
    obtain ⟨k, v⟩ := m
    obtain ⟨k', v'⟩ := m'
    obtain ⟨rfl, hv⟩ := hhead
    by_cases hkey : k = ascii key
    · subst hkey
      rcases hv with rfl | hv
      · exact .inl (by simp)
      · exact .inr ⟨v, v', by simp, by simp, hv⟩
    · simpa [hkey] using ih

theorem Members.objGet_eq {R : Bytes → Json → Json → Prop} {o o' : JsonObject} (h : Members R o o')
    {key : String} (hkey : ∀ v v', ¬R (ascii key) v v') :
    Steam.objGet o key = Steam.objGet o' key := by
  rcases h.objGet key with hsame | ⟨v, v', _, _, hv⟩
  · exact hsame
  · exact absurd hv (hkey v v')

theorem Members.getStr {R : Bytes → Json → Json → Prop} {o o' : JsonObject} (h : Members R o o')
    {key : String} (hkey : ∀ v v', ¬R (ascii key) v v') :
    Steam.getStr o key = Steam.getStr o' key := by
  unfold Steam.getStr
  rw [h.objGet_eq hkey]

theorem OtherForm.getInt64 {o o' : JsonObject} {key : String} {v v' : Json}
    (h : OtherForm FitsInt64 v v') (hget : objGet o key = some v)
    (hget' : objGet o' key = some v') : getInt64 o key = getInt64 o' key := by
  have hboth : ∀ {o o' : JsonObject} {v : Json} {n : Int}, v.integer? = some n → FitsInt64 n →
      objGet o key = some v → objGet o' key = some (.str (signedDecimal n)) →
      Steam.getInt64 o key = Steam.getInt64 o' key := by
    intro o o' v n hn hfits hget hget'
    rw [getInt64_of_integer hget hn, if_pos hfits.2, Steam.getInt64, hget']
    exact (strtoll_fits hfits).symm
  cases h with
  | asText hn hfits => exact hboth hn hfits hget hget'
  | asNumber hn hfits => exact (hboth hn hfits hget' hget).symm

theorem Members.getInt64 {R : Bytes → Json → Json → Prop} {o o' : JsonObject} (h : Members R o o')
    {key : String} (hkey : ∀ v v', R (ascii key) v v' → OtherForm FitsInt64 v v') :
    Steam.getInt64 o key = Steam.getInt64 o' key := by
  rcases h.objGet key with hsame | ⟨v, v', hget, hget', hv⟩
  · unfold Steam.getInt64
    rw [hsame]
  · exact (hkey v v' hv).getInt64 hget hget'

theorem getNumberAsString_of_integer {o : JsonObject} {key : String} {v : Json} {n : Int}
    (hget : objGet o key = some v) (hn : v.integer? = some n) :
    getNumberAsString o key = signedDecimal n := by
  unfold getNumberAsString
  rw [hget]
  cases v with
  | uint value =>
    obtain rfl := Option.some.inj hn
    exact (signedDecimal_natCast _).symm
  | sint value =>
    obtain rfl := Option.some.inj hn
    rfl
  | _ => cases hn

theorem getNumberAsString_of_str {o : JsonObject} {key : String} {text : Bytes}
    (hget : objGet o key = some (.str text)) : getNumberAsString o key = text := by
  unfold getNumberAsString
  rw [hget]

/-- The value gives an unsigned id, as a number or as the string of its digits. -/
def GivesId (n : Nat) (v : Json) : Prop := v.integer? = some (n : Int) ∨ v = .str (decimal n)

theorem GivesId.getNumberAsString {n : Nat} {v : Json} (h : GivesId n v) {o : JsonObject}
    {key : String} (hget : objGet o key = some v) : getNumberAsString o key = decimal n := by
  rcases h with hnumber | rfl
  · rw [getNumberAsString_of_integer hget hnumber, signedDecimal_natCast]
  · exact getNumberAsString_of_str hget

theorem OtherForm.getNumberAsString {P : Int → Prop} {o o' : JsonObject} {key : String}
    {v v' : Json} (h : OtherForm P v v') (hget : objGet o key = some v)
    (hget' : objGet o' key = some v') : getNumberAsString o key = getNumberAsString o' key := by
  cases h with
  | asText hn _ =>
    rw [getNumberAsString_of_integer hget hn, getNumberAsString_of_str hget']
  | asNumber hn _ =>
    rw [getNumberAsString_of_integer hget' hn, getNumberAsString_of_str hget]

theorem Members.maxId {response response' : JsonObject}
    (h : Members (ResponseMember FitsInt64) response response') :
    getNumberAsString response "max_id" = getNumberAsString response' "max_id" := by
  rcases h.objGet "max_id" with hsame | ⟨v, v', hget, hget', hv⟩
  · unfold Steam.getNumberAsString
    rw [hsame]
  · rcases hv with ⟨_, hform⟩ | ⟨hkey, _⟩ | ⟨hkey, _⟩
    · exact hform.getNumberAsString hget hget'
    · exact absurd hkey (by decide)
    · exact absurd hkey (by decide)

/-- Arrays of related objects have related objects, in the same order. -/
theorem objects_of_elements {R : Bytes → Json → Json → Prop} {items items' : List Json}
    (h : List.Forall₂ (fun v v' => v = v' ∨ Objects R v v') items items') :
    List.Forall₂ (Members R) (items.filterMap Json.object?) (items'.filterMap Json.object?) := by
  have hsame : ∀ o, Members R o o := fun o =>
    List.forall₂_same.mpr fun m _ => ⟨rfl, .inl rfl⟩
  induction h with
  | nil => exact .nil
  | @cons v v' items items' hv _ ih =>
    rcases hv with rfl | hv
    · cases v with
      | obj o => exact .cons (hsame o) ih
      | _ => exact ih
    · obtain ⟨hmembers⟩ := hv
      exact .cons hmembers ih

theorem namesFor_members {entries entries' : List JsonObject}
    (h : List.Forall₂ (Members (EntryMember FitsInt64)) entries entries') (id : Int) :
    namesFor entries id = namesFor entries' id := by
  unfold namesFor
  induction h with
  | nil => rfl
  | @cons entry entry' entries entries' hentry _ ih =>
    have hid : getInt64 entry "appid" = getInt64 entry' "appid" :=
      hentry.getInt64 fun _ _ hv => hv.2
    have hname : getStr entry "app_name" = getStr entry' "app_name" :=
      hentry.getStr fun _ _ hv => absurd hv.1 (by decide)
    by_cases happ : getInt64 entry' "appid" = id
    · simp [hid, hname, happ, ih]
    · simp [hid, happ, ih]

theorem Members.appNames {response response' : JsonObject}
    (h : Members (ResponseMember FitsInt64) response response') (id : Int) :
    (appNames response id).getD [] = (appNames response' id).getD [] := by
  rw [appNames_getD, appNames_getD]
  rcases h.objGet "app_info" with hsame | ⟨v, v', hget, hget', hv⟩
  · unfold appInfo
    rw [hsame]
  · rcases hv with ⟨hkey, _⟩ | ⟨_, ⟨helements⟩⟩ | ⟨hkey, _⟩
    · exact absurd hkey (by decide)
    · unfold appInfo
      rw [hget, hget']
      dsimp only
      rw [namesFor_members (objects_of_elements helements)]
    · exact absurd hkey (by decide)

theorem parseRecord_members {names names' : Int → Option Bytes}
    (hnames : ∀ id, (names id).getD [] = (names' id).getD []) {item item' : JsonObject}
    (h : Members (RecordMember FitsInt64) item item') :
    parseRecord names item = parseRecord names' item' := by
  have hint : ∀ key, getInt64 item key = getInt64 item' key := fun key =>
    h.getInt64 fun _ _ hv => hv.2
  have hstr : ∀ key, ascii key ∉ recordIntegers.map ascii → getStr item key = getStr item' key :=
    fun key hkey => h.getStr fun _ _ hv => hkey hv.1
  unfold parseRecord
  simp only [hint, hnames, hstr "line_item_type" (by decide), hstr "package_sale_type" (by decide),
    hstr "primary_app_name" (by decide)]

theorem responseMember_records {key : String} (hkey : key ∈ kRecordArrayKeys) {v v' : Json}
    (h : ResponseMember FitsInt64 (ascii key) v v') :
    Arrays (Objects (RecordMember FitsInt64)) v v' := by
  have hother : ∀ key ∈ kRecordArrayKeys, ascii key ≠ ascii "max_id" ∧
      ascii key ≠ ascii "app_info" := by decide
  rcases h with ⟨h, _⟩ | ⟨h, _⟩ | ⟨_, h⟩
  · exact absurd h (hother key hkey).1
  · exact absurd h (hother key hkey).2
  · exact h

/-- The elements of the first array of each page are equal or related. -/
theorem Members.recordArray {response response' : JsonObject}
    (h : Members (ResponseMember FitsInt64) response response') :
    List.Forall₂ (fun v v' => v = v' ∨ Objects (RecordMember FitsInt64) v v')
      ((Steam.recordArray response).getD []) ((Steam.recordArray response').getD []) := by
  unfold Steam.recordArray
  have hkeys : ∀ key ∈ kRecordArrayKeys, ∀ v v', ResponseMember FitsInt64 (ascii key) v v' →
      Arrays (Objects (RecordMember FitsInt64)) v v' :=
    fun _ hkey _ _ => responseMember_records hkey
  generalize kRecordArrayKeys = keys at hkeys ⊢
  induction keys with
  | nil => exact .nil
  | cons key keys ih =>
    obtain ⟨hkey, hrest⟩ := List.forall_mem_cons.mp hkeys
    have hlater := ih hrest
    rw [List.findSome?_cons, List.findSome?_cons]
    rcases h.objGet key with hsame | ⟨v, v', hget, hget', hv⟩
    · rw [hsame]
      rcases Steam.objGet response' key with _ | v
      · exact hlater
      · cases v with
        | arr items => exact List.forall₂_same.mpr fun _ _ => .inl rfl
        | _ => exact hlater
    · rw [hget, hget']
      obtain ⟨helements⟩ := hkey _ _ hv
      exact helements

theorem Members.responseRecords {response response' : JsonObject}
    (h : Members (ResponseMember FitsInt64) response response') :
    Steam.responseRecords response = Steam.responseRecords response' := by
  unfold Steam.responseRecords
  have hobjects := objects_of_elements h.recordArray
  generalize ((Steam.recordArray response).getD []).filterMap Json.object? = items at hobjects ⊢
  generalize ((Steam.recordArray response').getD []).filterMap Json.object? = items' at hobjects ⊢
  induction hobjects with
  | nil => rfl
  | cons hitem _ ih =>
    rw [List.map_cons, List.map_cons, parseRecord_members h.appNames hitem, ih]

/-- Documents that differ only in forms are refused alike, or both answer. -/
theorem SamePage.readResponse {read : Bytes → Option Json} {json json' : Bytes}
    (h : SamePage FitsInt64 (read json) (read json')) :
    (∃ result, readResponse read json = .error result ∧ readResponse read json' = .error result) ∨
      ∃ response response', Steam.readResponse read json = .ok response ∧
        Steam.readResponse read json' = .ok response' ∧
        (response = response' ∨ Members (ResponseMember FitsInt64) response response') := by
  have hequal : ∀ outcome : Except ParseResult JsonObject,
      (∃ result, outcome = .error result ∧ outcome = .error result) ∨
        ∃ response response', outcome = .ok response ∧ outcome = .ok response' ∧
          (response = response' ∨ Members (ResponseMember FitsInt64) response response') := by
    intro outcome
    cases outcome with
    | error result => exact .inl ⟨result, rfl, rfl⟩
    | ok response => exact .inr ⟨response, response, rfl, rfl, .inl rfl⟩
  unfold Steam.readResponse
  generalize read json = document at h
  generalize read json' = document' at h
  cases h with
  | none => exact .inl ⟨_, rfl, rfl⟩
  | @some root root' hroot =>
    rcases hroot with rfl | hroot
    · exact hequal (getResponse root)
    · obtain ⟨hmembers⟩ := hroot
      rename_i root root'
      have herror : Steam.objGet root "error" = Steam.objGet root' "error" :=
        hmembers.objGet_eq fun _ _ hv => absurd hv.1 (by decide)
      unfold getResponse
      dsimp only
      rw [herror]
      split
      · exact hequal (.error _)
      · rcases hmembers.objGet "response" with hsame | ⟨v, v', hget, hget', hv⟩
        · rw [hsame]
          exact hequal _
        · rw [hget, hget']
          obtain ⟨_, ⟨hresponse⟩⟩ := hv
          exact .inr ⟨_, _, rfl, rfl, .inr hresponse⟩

/-- The parser makes the same of documents that differ only in the forms of their integers. -/
theorem SamePage.parse {read : Bytes → Option Json} {json json' : Bytes}
    (h : SamePage FitsInt64 (read json) (read json')) :
    parseDetailedSalesPage read json = parseDetailedSalesPage read json' := by
  unfold parseDetailedSalesPage
  rcases h.readResponse with ⟨result, hfail, hfail'⟩ | ⟨response, response', hok, hok', hsame⟩
  · rw [hfail, hfail']
  · rw [hok, hok']
    rcases hsame with rfl | hsame
    · rfl
    · dsimp only
      rw [hsame.maxId, hsame.responseRecords]

end SteamSalesTray.Steam
