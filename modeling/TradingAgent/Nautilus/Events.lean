import TradingAgent.Domain.Orders
import TradingAgent.Lib.Calendar

/-!
# P1 events

The closed event vocabulary of a P1 run (`nautilus_runtime_contracts/events.py`). Each of the eight event models
carries the checks of its validator as fields; a field that is fixed to one literal is added again by its JSON
document.
-/

namespace TradingAgent.Nautilus

def isIdentifierChar (c : Char) : Bool := c.isAlphanum || c = '.' || c = '_' || c = ':' || c = '-'

/-- `^[A-Za-z0-9][A-Za-z0-9._:-]{0,127}$` -/
def isIdentifier (text : String) : Bool :=
  match text.toList with
  | [] => false
  | first :: rest => first.isAlphanum && rest.length < 128 && rest.all isIdentifierChar

@[ext] structure Identifier where
  text : String
  valid : isIdentifier text = true
  deriving DecidableEq

def isHexDigit (c : Char) : Bool := c.isDigit || ('a' ≤ c && c ≤ 'f')

/-- `^[0-9a-f]{64}$` -/
def isSha256Hex (text : String) : Bool := text.toList.length = 64 && text.toList.all isHexDigit

@[ext] structure Sha256Hex where
  text : String
  valid : isSha256Hex text = true
  deriving DecidableEq

/-- `^(?:[0-9a-f]{40}|[0-9a-f]{64})$` -/
def isSourceCommit (text : String) : Bool :=
  (text.toList.length = 40 || text.toList.length = 64) && text.toList.all isHexDigit

@[ext] structure SourceCommit where
  text : String
  valid : isSourceCommit text = true
  deriving DecidableEq

/-- The fields that the constructor of `datetime` accepts. -/
def isCalendar (year month day hour minute second microsecond : ℕ) : Bool :=
  decide (1 ≤ year) && decide (year ≤ 9999) && decide (1 ≤ month) && decide (month ≤ 12) &&
    decide (1 ≤ day) && decide (day ≤ Calendar.daysInMonth year month) && decide (hour < 24) &&
    decide (minute < 60) && decide (second < 60) && decide (microsecond < 1000000)

/-- A UTC `datetime`, by its calendar fields. -/
@[ext] structure UtcDateTime where
  year : ℕ
  month : ℕ
  day : ℕ
  hour : ℕ
  minute : ℕ
  second : ℕ
  microsecond : ℕ
  valid : isCalendar year month day hour minute second microsecond = true
  deriving DecidableEq

/-- The fields as one number, most significant first; datetimes are compared field by field. -/
def UtcDateTime.rank (t : UtcDateTime) : ℕ :=
  (((((t.year * 13 + t.month) * 32 + t.day) * 24 + t.hour) * 60 + t.minute) * 60 + t.second) * 1000000 +
    t.microsecond

instance : LT UtcDateTime := ⟨fun t u => t.rank < u.rank⟩

instance (t u : UtcDateTime) : Decidable (t < u) := inferInstanceAs (Decidable (t.rank < u.rank))

/-- The checks on `source_signal_ids`: between 1 and 64 identifiers without a repetition. -/
def SignalsValid (signals : List Identifier) : Prop :=
  1 ≤ signals.length ∧ signals.length ≤ 64 ∧ signals.Nodup

instance (signals : List Identifier) : Decidable (SignalsValid signals) :=
  inferInstanceAs (Decidable (_ ∧ _ ∧ _))

/-- `le=9_223_372_036_854_775_807` -/
def maxCount : ℕ := 9223372036854775807

@[ext] structure RunStarted where
  upstreamCommit : SourceCommit
  closureDigest : Sha256Hex
  configDigest : Sha256Hex
  catalogDigest : Sha256Hex
  dataDigest : Sha256Hex
  deriving DecidableEq

@[ext] structure TargetAccepted where
  targetId : Identifier
  sourceSignalIds : List Identifier
  targetWeight : Decimal
  signals_valid : SignalsValid sourceSignalIds
  long_or_flat : 0 ≤ targetWeight ∧ targetWeight ≤ 1

instance : DecidableEq TargetAccepted := fun _ _ => decidable_of_iff' _ TargetAccepted.ext_iff

@[ext] structure TargetQuantityPlanned where
  targetId : Identifier
  quantity : Decimal
  non_negative : 0 ≤ quantity

instance : DecidableEq TargetQuantityPlanned := fun _ _ => decidable_of_iff' _ TargetQuantityPlanned.ext_iff

@[ext] structure OrderSubmitted where
  clientOrderId : Identifier
  nativeOrderId : Identifier
  targetId : Identifier
  sourceSignalIds : List Identifier
  side : OrderSide
  quantity : Decimal
  signals_valid : SignalsValid sourceSignalIds
  positive : 0 < quantity

instance : DecidableEq OrderSubmitted := fun _ _ => decidable_of_iff' _ OrderSubmitted.ext_iff

@[ext] structure Fill where
  clientOrderId : Identifier
  nativeFillId : Identifier
  side : OrderSide
  quantity : Decimal
  price : Decimal
  fee : Decimal
  valid_amounts : 0 < quantity ∧ 0 < price ∧ 0 ≤ fee
  deriving DecidableEq

@[ext] structure PositionObserved where
  quantity : Decimal
  averageEntryPrice : Decimal
  realizedPnl : Decimal
  unrealizedPnl : Decimal
  long_or_flat : 0 ≤ quantity ∧ 0 ≤ averageEntryPrice
  deriving DecidableEq

@[ext] structure AccountObserved where
  cashBalance : Decimal
  fees : Decimal
  realizedPnl : Decimal
  unrealizedPnl : Decimal
  valid_account : 0 ≤ cashBalance ∧ 0 ≤ fees
  deriving DecidableEq

@[ext] structure RunCompleted where
  upstreamCommit : SourceCommit
  closureDigest : Sha256Hex
  targetCount : ℕ
  orderCount : ℕ
  fillCount : ℕ
  finalCash : Decimal
  finalPosition : Decimal
  fees : Decimal
  realizedPnl : Decimal
  unrealizedPnl : Decimal
  semanticDigest : Sha256Hex
  counts_bounded : targetCount ≤ maxCount ∧ orderCount ≤ maxCount ∧ fillCount ≤ maxCount
  valid_final_account : 0 ≤ finalCash ∧ 0 ≤ finalPosition ∧ 0 ≤ fees
  deriving DecidableEq

/-- What the eight event models add to sequence and simulation time. -/
inductive P1Body
  | runStarted (start : RunStarted)
  | targetAccepted (target : TargetAccepted)
  | targetQuantityPlanned (plan : TargetQuantityPlanned)
  | orderSubmitted (order : OrderSubmitted)
  | fill (fill : Fill)
  | positionObserved (position : PositionObserved)
  | accountObserved (account : AccountObserved)
  | runCompleted (completion : RunCompleted)
  deriving DecidableEq

@[ext] structure P1Event where
  sequence : ℕ
  simulationTime : UtcDateTime
  body : P1Body
  sequence_valid : 0 < sequence ∧ sequence ≤ maxCount
  deriving DecidableEq

namespace P1Event

def runStarted? (event : P1Event) : Option RunStarted :=
  match event.body with
  | .runStarted start => some start
  | _ => none

def runCompleted? (event : P1Event) : Option RunCompleted :=
  match event.body with
  | .runCompleted completion => some completion
  | _ => none

def positionObserved? (event : P1Event) : Option PositionObserved :=
  match event.body with
  | .positionObserved position => some position
  | _ => none

def accountObserved? (event : P1Event) : Option AccountObserved :=
  match event.body with
  | .accountObserved account => some account
  | _ => none

def fill? (event : P1Event) : Option Fill :=
  match event.body with
  | .fill fill => some fill
  | _ => none

end P1Event

end TradingAgent.Nautilus
