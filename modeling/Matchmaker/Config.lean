import Mathlib.Algebra.Group.Nat.Defs

namespace Matchmaker

inductive ConfigError
  | invalid (var expected actual : String)
  | constraint (message : String)
deriving DecidableEq

structure Config where
  serverPort : Nat
  workerCount : Nat
  workerTickMs : Nat
  staleClaimTimeoutMs : Nat
  relaxationStage1Ms : Nat
  relaxationStage2Ms : Nat
  relaxationStage3Ms : Nat
  relaxationStage4Ms : Nat
  relaxationStage1Delta : Nat
  relaxationStage2Delta : Nat
  relaxationStage3Delta : Nat
  relaxationStage4Delta : Nat
  relaxationStage5Delta : Nat
deriving DecidableEq

/-- The values used for variables that are not set. -/
def Config.default : Config where
  serverPort := 8080
  workerCount := 4
  workerTickMs := 50
  staleClaimTimeoutMs := 500
  relaxationStage1Ms := 5000
  relaxationStage2Ms := 15000
  relaxationStage3Ms := 30000
  relaxationStage4Ms := 60000
  relaxationStage1Delta := 50
  relaxationStage2Delta := 100
  relaxationStage3Delta := 200
  relaxationStage4Delta := 400
  relaxationStage5Delta := 9999

/-! Unsigned integers, as `str::parse` reads them. -/

inductive UnsignedType
  | u16
  | u32
  | u64
  | usize

namespace UnsignedType

/-- What `std::any::type_name` calls the type. -/
def typeName : UnsignedType → String
  | .u16 => "u16"
  | .u32 => "u32"
  | .u64 => "u64"
  | .usize => "usize"

def maxValue : UnsignedType → Nat
  | .u16 => 2 ^ 16 - 1
  | .u32 => 2 ^ 32 - 1
  | .u64 => 2 ^ 64 - 1
  | .usize => 2 ^ 64 - 1

end UnsignedType

inductive IntErrorKind
  | empty
  | invalidDigit
  | posOverflow
deriving DecidableEq

def IntErrorKind.description : IntErrorKind → String
  | .empty => "cannot parse integer from empty string"
  | .invalidDigit => "invalid digit found in string"
  | .posOverflow => "number too large to fit in target type"

/-- `char::is_whitespace`. -/
def isWhitespace (char : Char) : Bool :=
  let code := char.toNat
  (9 ≤ code && code ≤ 13) || code == 32 || code == 0x85 || code == 0xA0 ||
    code == 0x1680 || (0x2000 ≤ code && code ≤ 0x200A) || code == 0x2028 ||
    code == 0x2029 || code == 0x202F || code == 0x205F || code == 0x3000

def trim (text : List Char) : List Char :=
  ((text.dropWhile isWhitespace).reverse.dropWhile isWhitespace).reverse

def toDigit (char : Char) : Option Nat :=
  if '0' ≤ char ∧ char ≤ '9' then some (char.toNat - '0'.toNat) else none

/-- A character that is no digit is found before an overflow at it. -/
def parseDigits (maxValue : Nat) : List Char → Nat → Except IntErrorKind Nat
  | [], value => .ok value
  | char :: rest, value =>
      match toDigit char with
      | none => .error .invalidDigit
      | some digit =>
          if maxValue < value * 10 + digit then .error .posOverflow
          else parseDigits maxValue rest (value * 10 + digit)

/-- A leading plus sign is skipped, and there must be a digit after it. -/
def parseUnsigned (maxValue : Nat) : List Char → Except IntErrorKind Nat
  | [] => .error .empty
  | ['+'] => .error .invalidDigit
  | '+' :: digits => parseDigits maxValue digits 0
  | digits => parseDigits maxValue digits 0

/-- A variable that is set must spell a number within the range. -/
def parseEnvRange (env : String → Option String) (type : UnsignedType)
    (name : String) (min max default : Nat) : Except ConfigError Nat :=
  match env name with
  | none => .ok default
  | some raw =>
      match parseUnsigned type.maxValue (trim raw.toList) with
      | .error kind =>
          .error (.invalid name ("a valid " ++ type.typeName)
            (raw ++ " (" ++ kind.description ++ ")"))
      | .ok value =>
          if value < min ∨ max < value then
            .error (.invalid name
              ("a value between " ++ toString min ++ " and " ++ toString max)
              (toString value))
          else .ok value

def mustBe (holds : Bool) (relation left : String) (value : Nat)
    (right : String) (limit : Nat) (note : String) :
    Except ConfigError Unit :=
  if holds then .ok ()
  else .error (.constraint (left ++ " (" ++ toString value ++ ") must be " ++
    relation ++ " " ++ right ++ " (" ++ toString limit ++ ")" ++ note))

namespace Config

def validate (config : Config) : Except ConfigError Unit := do
  -- relaxation time thresholds must be strictly increasing
  mustBe (config.relaxationStage1Ms < config.relaxationStage2Ms) "less than"
    "RELAXATION_STAGE_1_MS" config.relaxationStage1Ms
    "RELAXATION_STAGE_2_MS" config.relaxationStage2Ms ""
  mustBe (config.relaxationStage2Ms < config.relaxationStage3Ms) "less than"
    "RELAXATION_STAGE_2_MS" config.relaxationStage2Ms
    "RELAXATION_STAGE_3_MS" config.relaxationStage3Ms ""
  mustBe (config.relaxationStage3Ms < config.relaxationStage4Ms) "less than"
    "RELAXATION_STAGE_3_MS" config.relaxationStage3Ms
    "RELAXATION_STAGE_4_MS" config.relaxationStage4Ms ""
  -- relaxation deltas must be non-decreasing
  mustBe (config.relaxationStage1Delta ≤ config.relaxationStage2Delta) "<="
    "RELAXATION_STAGE_1_DELTA" config.relaxationStage1Delta
    "RELAXATION_STAGE_2_DELTA" config.relaxationStage2Delta ""
  mustBe (config.relaxationStage2Delta ≤ config.relaxationStage3Delta) "<="
    "RELAXATION_STAGE_2_DELTA" config.relaxationStage2Delta
    "RELAXATION_STAGE_3_DELTA" config.relaxationStage3Delta ""
  mustBe (config.relaxationStage3Delta ≤ config.relaxationStage4Delta) "<="
    "RELAXATION_STAGE_3_DELTA" config.relaxationStage3Delta
    "RELAXATION_STAGE_4_DELTA" config.relaxationStage4Delta ""
  mustBe (config.relaxationStage4Delta ≤ config.relaxationStage5Delta) "<="
    "RELAXATION_STAGE_4_DELTA" config.relaxationStage4Delta
    "RELAXATION_STAGE_5_DELTA" config.relaxationStage5Delta ""
  mustBe (config.workerTickMs < config.staleClaimTimeoutMs) "greater than"
    "STALE_CLAIM_TIMEOUT_MS" config.staleClaimTimeoutMs
    "WORKER_TICK_MS" config.workerTickMs
    (". Otherwise the Reaper may reset claims that are still in progress.")

/-- The environment is what `std::env::var` sees once the `.env` file is
loaded: no variable is required. -/
def fromEnv (env : String → Option String) : Except ConfigError Config := do
  let config : Config := {
    serverPort := ← parseEnvRange env .u16 "SERVER_PORT" 1024 65535 8080
    workerCount := ← parseEnvRange env .usize "WORKER_COUNT" 1 64 4
    workerTickMs := ← parseEnvRange env .u64 "WORKER_TICK_MS" 10 10000 50
    staleClaimTimeoutMs :=
      ← parseEnvRange env .u64 "STALE_CLAIM_TIMEOUT_MS" 100 30000 500
    relaxationStage1Ms :=
      ← parseEnvRange env .u64 "RELAXATION_STAGE_1_MS" 1 300000 5000
    relaxationStage2Ms :=
      ← parseEnvRange env .u64 "RELAXATION_STAGE_2_MS" 1 300000 15000
    relaxationStage3Ms :=
      ← parseEnvRange env .u64 "RELAXATION_STAGE_3_MS" 1 300000 30000
    relaxationStage4Ms :=
      ← parseEnvRange env .u64 "RELAXATION_STAGE_4_MS" 1 300000 60000
    relaxationStage1Delta :=
      ← parseEnvRange env .u32 "RELAXATION_STAGE_1_DELTA" 0 10000 50
    relaxationStage2Delta :=
      ← parseEnvRange env .u32 "RELAXATION_STAGE_2_DELTA" 0 10000 100
    relaxationStage3Delta :=
      ← parseEnvRange env .u32 "RELAXATION_STAGE_3_DELTA" 0 10000 200
    relaxationStage4Delta :=
      ← parseEnvRange env .u32 "RELAXATION_STAGE_4_DELTA" 0 10000 400
    relaxationStage5Delta :=
      ← parseEnvRange env .u32 "RELAXATION_STAGE_5_DELTA" 0 10000 9999 }
  config.validate
  return config

theorem fromEnv_unset : fromEnv (fun _ => none) = .ok default := rfl

/-- What the cross-field checks see to. -/
structure Staged (config : Config) : Prop where
  stage1Ms : config.relaxationStage1Ms < config.relaxationStage2Ms
  stage2Ms : config.relaxationStage2Ms < config.relaxationStage3Ms
  stage3Ms : config.relaxationStage3Ms < config.relaxationStage4Ms
  stage1Delta : config.relaxationStage1Delta ≤ config.relaxationStage2Delta
  stage2Delta : config.relaxationStage2Delta ≤ config.relaxationStage3Delta
  stage3Delta : config.relaxationStage3Delta ≤ config.relaxationStage4Delta
  stage4Delta : config.relaxationStage4Delta ≤ config.relaxationStage5Delta
  stale : config.workerTickMs < config.staleClaimTimeoutMs

/-- What every configuration satisfies that the service starts with. -/
structure Valid (config : Config) : Prop where
  serverPort : 1024 ≤ config.serverPort ∧ config.serverPort ≤ 65535
  workerCount : 1 ≤ config.workerCount ∧ config.workerCount ≤ 64
  workerTickMs : 10 ≤ config.workerTickMs ∧ config.workerTickMs ≤ 10000
  staleClaimTimeoutMs : 100 ≤ config.staleClaimTimeoutMs ∧
    config.staleClaimTimeoutMs ≤ 30000
  relaxationStage1Ms : 1 ≤ config.relaxationStage1Ms
  stage1Ms : config.relaxationStage1Ms < config.relaxationStage2Ms
  stage2Ms : config.relaxationStage2Ms < config.relaxationStage3Ms
  stage3Ms : config.relaxationStage3Ms < config.relaxationStage4Ms
  relaxationStage4Ms : config.relaxationStage4Ms ≤ 300000
  stage1Delta : config.relaxationStage1Delta ≤ config.relaxationStage2Delta
  stage2Delta : config.relaxationStage2Delta ≤ config.relaxationStage3Delta
  stage3Delta : config.relaxationStage3Delta ≤ config.relaxationStage4Delta
  stage4Delta : config.relaxationStage4Delta ≤ config.relaxationStage5Delta
  relaxationStage5Delta : config.relaxationStage5Delta ≤ 10000
  stale : config.workerTickMs < config.staleClaimTimeoutMs

end Config

theorem Config.Valid.staged {config : Config} (valid : config.Valid) :
    config.Staged where
  stage1Ms := valid.stage1Ms
  stage2Ms := valid.stage2Ms
  stage3Ms := valid.stage3Ms
  stage1Delta := valid.stage1Delta
  stage2Delta := valid.stage2Delta
  stage3Delta := valid.stage3Delta
  stage4Delta := valid.stage4Delta
  stale := valid.stale

theorem parseEnvRange_within {env : String → Option String}
    {type : UnsignedType} {name : String} {min max default value : Nat}
    (usual : min ≤ default ∧ default ≤ max)
    (parsed : parseEnvRange env type name min max default = .ok value) :
    min ≤ value ∧ value ≤ max := by
  unfold parseEnvRange at parsed
  split at parsed
  · cases parsed
    exact usual
  · split at parsed
    · cases parsed
    · split at parsed
      · cases parsed
      · cases parsed
        omega

theorem mustBe_holds {holds : Bool} {relation left right note : String}
    {value limit : Nat}
    (passed : mustBe holds relation left value right limit note = .ok ()) :
    holds = true := by
  unfold mustBe at passed
  split at passed
  · assumption
  · cases passed

theorem bind_eq_ok {first : Except ε α} {rest : α → Except ε β} {result : β}
    (succeeded : first >>= rest = .ok result) :
    ∃ value, first = .ok value ∧ rest value = .ok result := by
  cases first with
  | error error => cases succeeded
  | ok value => exact ⟨value, rfl, succeeded⟩

theorem Config.validate_staged {config : Config}
    (accepted : config.validate = .ok ()) : config.Staged := by
  obtain ⟨_, stage1Ms, accepted⟩ := bind_eq_ok accepted
  obtain ⟨_, stage2Ms, accepted⟩ := bind_eq_ok accepted
  obtain ⟨_, stage3Ms, accepted⟩ := bind_eq_ok accepted
  obtain ⟨_, stage1Delta, accepted⟩ := bind_eq_ok accepted
  obtain ⟨_, stage2Delta, accepted⟩ := bind_eq_ok accepted
  obtain ⟨_, stage3Delta, accepted⟩ := bind_eq_ok accepted
  obtain ⟨_, stage4Delta, stale⟩ := bind_eq_ok accepted
  exact {
    stage1Ms := of_decide_eq_true (mustBe_holds stage1Ms)
    stage2Ms := of_decide_eq_true (mustBe_holds stage2Ms)
    stage3Ms := of_decide_eq_true (mustBe_holds stage3Ms)
    stage1Delta := of_decide_eq_true (mustBe_holds stage1Delta)
    stage2Delta := of_decide_eq_true (mustBe_holds stage2Delta)
    stage3Delta := of_decide_eq_true (mustBe_holds stage3Delta)
    stage4Delta := of_decide_eq_true (mustBe_holds stage4Delta)
    stale := of_decide_eq_true (mustBe_holds stale) }

theorem Config.fromEnv_valid {env : String → Option String} {config : Config}
    (accepted : fromEnv env = .ok config) : config.Valid := by
  obtain ⟨_, serverPort, accepted⟩ := bind_eq_ok accepted
  obtain ⟨_, workerCount, accepted⟩ := bind_eq_ok accepted
  obtain ⟨_, workerTickMs, accepted⟩ := bind_eq_ok accepted
  obtain ⟨_, staleClaimTimeoutMs, accepted⟩ := bind_eq_ok accepted
  obtain ⟨_, relaxationStage1Ms, accepted⟩ := bind_eq_ok accepted
  obtain ⟨_, relaxationStage2Ms, accepted⟩ := bind_eq_ok accepted
  obtain ⟨_, relaxationStage3Ms, accepted⟩ := bind_eq_ok accepted
  obtain ⟨_, relaxationStage4Ms, accepted⟩ := bind_eq_ok accepted
  obtain ⟨_, relaxationStage1Delta, accepted⟩ := bind_eq_ok accepted
  obtain ⟨_, relaxationStage2Delta, accepted⟩ := bind_eq_ok accepted
  obtain ⟨_, relaxationStage3Delta, accepted⟩ := bind_eq_ok accepted
  obtain ⟨_, relaxationStage4Delta, accepted⟩ := bind_eq_ok accepted
  obtain ⟨_, relaxationStage5Delta, accepted⟩ := bind_eq_ok accepted
  obtain ⟨⟨⟩, validated, accepted⟩ := bind_eq_ok accepted
  cases accepted
  have staged := validate_staged validated
  exact {
    serverPort := parseEnvRange_within (by decide) serverPort
    workerCount := parseEnvRange_within (by decide) workerCount
    workerTickMs := parseEnvRange_within (by decide) workerTickMs
    staleClaimTimeoutMs := parseEnvRange_within (by decide) staleClaimTimeoutMs
    relaxationStage1Ms :=
      (parseEnvRange_within (by decide) relaxationStage1Ms).1
    stage1Ms := staged.stage1Ms
    stage2Ms := staged.stage2Ms
    stage3Ms := staged.stage3Ms
    relaxationStage4Ms :=
      (parseEnvRange_within (by decide) relaxationStage4Ms).2
    stage1Delta := staged.stage1Delta
    stage2Delta := staged.stage2Delta
    stage3Delta := staged.stage3Delta
    stage4Delta := staged.stage4Delta
    relaxationStage5Delta :=
      (parseEnvRange_within (by decide) relaxationStage5Delta).2
    stale := staged.stale }

end Matchmaker
