import SteamSalesTray.Text

/-! What the Steam client returns. -/

namespace SteamSalesTray.Steam

structure ChangedDates where
  dates : List Bytes
  resultHighwatermark : Bytes
deriving DecidableEq, Repr

/-- One raw line item, before filtering. -/
structure DetailedSalesRecord where
  lineItemType : Bytes
  packageSaleType : Bytes
  primaryAppId : Int
  primaryAppName : Bytes
  netUnitsSold : Int
  grossUnitsSold : Int
  grossUnitsReturned : Int
deriving DecidableEq, Repr

/-- One page of line items, with the cursor of the next request. -/
structure DetailedSalesPage where
  records : List DetailedSalesRecord
  maxId : Bytes
  hasMaxId : Bool
deriving DecidableEq, Repr

inductive ResultKind where
  | success
  | offline
  | auth
  | rateLimited
  | serverError
  | tooLarge
  | parse
  | other
deriving DecidableEq, Repr

structure FinancialResult where
  kind : ResultKind
  httpStatus : Int
  message : Wide
deriving DecidableEq, Repr

def FinancialResult.ok (r : FinancialResult) : Bool := r.kind = .success

def FinancialResult.succeeded : FinancialResult := ⟨.success, 0, []⟩

end SteamSalesTray.Steam
