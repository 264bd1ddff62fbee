import SteamSalesTray.Network.UrlEncoder
import SteamSalesTray.Platform.Logging

/-! The query strings of the requests, which carry the API key, and what a log line shows of
them. -/

namespace SteamSalesTray.Steam

open Network Platform

def buildQuery (keyUtf8 : Bytes) (extra : Wide) : Wide :=
  let q := wide "key=" ++ encodeComponent keyUtf8 ++ wide "&include_view_grants=false"
  if extra.isEmpty then q else q ++ wide "&" ++ extra

theorem buildQuery_eq (extra : Wide) :
    ∃ rest, ∀ keyUtf8, buildQuery keyUtf8 extra =
      keyMasking.key ++ (encodeComponent keyUtf8 ++ 38 :: rest) := by
  unfold buildQuery
  split
  · exact ⟨wide "include_view_grants=false", fun keyUtf8 => by rw [List.append_assoc]; rfl⟩
  · refine ⟨wide "include_view_grants=false" ++ wide "&" ++ extra, fun keyUtf8 => ?_⟩
    simp only [List.append_assoc]
    rfl

/-- No character of an encoded key ends the value that `RedactSecrets` replaces. -/
theorem encodeComponent_running (keyUtf8 : Bytes) :
    ∀ c ∈ encodeComponent keyUtf8, keyMasking.stop c = false := by
  have hplain : ∀ d ∈ valueDelimiters, isComponentChar d = false := by
    simp [valueDelimiters, isComponentChar]
  intro c hc
  refine decide_eq_false fun hdelimiter => ?_
  have hchar := encodeComponent_isComponentChar keyUtf8 hc
  rw [hplain c hdelimiter] at hchar
  cases hchar

/-- The key has no influence on a line that is redacted, whatever stands before and after it. -/
theorem redactSecrets_key (before after extra : Wide) (key1 key2 : Bytes) :
    redactSecrets (before ++ buildQuery key1 extra ++ after) =
      redactSecrets (before ++ buildQuery key2 extra ++ after) := by
  obtain ⟨rest, hquery⟩ := buildQuery_eq extra
  have hline : ∀ key, before ++ buildQuery key extra ++ after =
      before ++ keyMasking.key ++ (encodeComponent key ++ 38 :: (rest ++ after)) := fun key => by
    simp [hquery]
  rw [redactSecrets_eq, redactSecrets_eq, hline, hline]
  exact keyMasking.masked_value (encodeComponent_running key1) (encodeComponent_running key2)
    (by decide) before (rest ++ after)

end SteamSalesTray.Steam
