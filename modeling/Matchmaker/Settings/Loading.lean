import Matchmaker.Checking.Firsts
import Matchmaker.Settings.Spelling

namespace Matchmaker

open Checking

/-! Which environments the service starts with, and what it complains about in
the others. -/

/-- A variable as `from_env` reads it. -/
structure Setting where
  name : String
  type : UnsignedType
  min : Nat
  max : Nat
  default : Nat

/-- In the order in which they are read. -/
def settings : List Setting := [
  ⟨"SERVER_PORT", .u16, 1024, 65535, 8080⟩,
  ⟨"WORKER_COUNT", .usize, 1, 64, 4⟩,
  ⟨"WORKER_TICK_MS", .u64, 10, 10000, 50⟩,
  ⟨"STALE_CLAIM_TIMEOUT_MS", .u64, 100, 30000, 500⟩,
  ⟨"RELAXATION_STAGE_1_MS", .u64, 1, 300000, 5000⟩,
  ⟨"RELAXATION_STAGE_2_MS", .u64, 1, 300000, 15000⟩,
  ⟨"RELAXATION_STAGE_3_MS", .u64, 1, 300000, 30000⟩,
  ⟨"RELAXATION_STAGE_4_MS", .u64, 1, 300000, 60000⟩,
  ⟨"RELAXATION_STAGE_1_DELTA", .u32, 0, 10000, 50⟩,
  ⟨"RELAXATION_STAGE_2_DELTA", .u32, 0, 10000, 100⟩,
  ⟨"RELAXATION_STAGE_3_DELTA", .u32, 0, 10000, 200⟩,
  ⟨"RELAXATION_STAGE_4_DELTA", .u32, 0, 10000, 400⟩,
  ⟨"RELAXATION_STAGE_5_DELTA", .u32, 0, 10000, 9999⟩]

namespace Config

def values (config : Config) : List Nat := [
  config.serverPort, config.workerCount, config.workerTickMs,
  config.staleClaimTimeoutMs, config.relaxationStage1Ms,
  config.relaxationStage2Ms, config.relaxationStage3Ms,
  config.relaxationStage4Ms, config.relaxationStage1Delta,
  config.relaxationStage2Delta, config.relaxationStage3Delta,
  config.relaxationStage4Delta, config.relaxationStage5Delta]

/-- The default stands for lists of another length. -/
def ofValues : List Nat → Config
  | [serverPort, workerCount, workerTickMs, staleClaimTimeoutMs,
      relaxationStage1Ms, relaxationStage2Ms, relaxationStage3Ms,
      relaxationStage4Ms, relaxationStage1Delta, relaxationStage2Delta,
      relaxationStage3Delta, relaxationStage4Delta,
      relaxationStage5Delta] =>
      { serverPort, workerCount, workerTickMs, staleClaimTimeoutMs,
        relaxationStage1Ms, relaxationStage2Ms, relaxationStage3Ms,
        relaxationStage4Ms, relaxationStage1Delta, relaxationStage2Delta,
        relaxationStage3Delta, relaxationStage4Delta, relaxationStage5Delta }
  | _ => .default

end Config

/-- A check across fields as `validate` makes it. -/
structure Constraint where
  holds : Config → Bool
  relation : String
  left : String
  value : Config → Nat
  right : String
  limit : Config → Nat
  note : String

def Constraint.lessThan (left : String) (value : Config → Nat)
    (right : String) (limit : Config → Nat) : Constraint :=
  ⟨fun config => value config < limit config, "less than", left, value, right,
    limit, ""⟩

def Constraint.atMost (left : String) (value : Config → Nat)
    (right : String) (limit : Config → Nat) : Constraint :=
  ⟨fun config => value config ≤ limit config, "<=", left, value, right, limit,
    ""⟩

/-- In the order in which they are checked. -/
def constraints : List Constraint := [
  .lessThan "RELAXATION_STAGE_1_MS" (·.relaxationStage1Ms)
    "RELAXATION_STAGE_2_MS" (·.relaxationStage2Ms),
  .lessThan "RELAXATION_STAGE_2_MS" (·.relaxationStage2Ms)
    "RELAXATION_STAGE_3_MS" (·.relaxationStage3Ms),
  .lessThan "RELAXATION_STAGE_3_MS" (·.relaxationStage3Ms)
    "RELAXATION_STAGE_4_MS" (·.relaxationStage4Ms),
  .atMost "RELAXATION_STAGE_1_DELTA" (·.relaxationStage1Delta)
    "RELAXATION_STAGE_2_DELTA" (·.relaxationStage2Delta),
  .atMost "RELAXATION_STAGE_2_DELTA" (·.relaxationStage2Delta)
    "RELAXATION_STAGE_3_DELTA" (·.relaxationStage3Delta),
  .atMost "RELAXATION_STAGE_3_DELTA" (·.relaxationStage3Delta)
    "RELAXATION_STAGE_4_DELTA" (·.relaxationStage4Delta),
  .atMost "RELAXATION_STAGE_4_DELTA" (·.relaxationStage4Delta)
    "RELAXATION_STAGE_5_DELTA" (·.relaxationStage5Delta),
  ⟨fun config => config.workerTickMs < config.staleClaimTimeoutMs,
    "greater than", "STALE_CLAIM_TIMEOUT_MS", (·.staleClaimTimeoutMs),
    "WORKER_TICK_MS", (·.workerTickMs),
    ". Otherwise the Reaper may reset claims that are still in progress."⟩]

def Constraint.check (config : Config) (constraint : Constraint) :
    Except ConfigError Unit :=
  mustBe (constraint.holds config) constraint.relation constraint.left
    (constraint.value config) constraint.right (constraint.limit config)
    constraint.note

theorem Config.validate_eq (config : Config) :
    config.validate = constraints.forM (Constraint.check config) := by
  simp only [constraints, List.forM_eq_forM, List.forM_cons, List.forM_nil,
    bind_pure_unit]
  rfl

theorem mustBe_eq_ok_iff {holds : Bool} {relation left right note : String}
    {value limit : Nat} :
    mustBe holds relation left value right limit note = .ok () ↔
      holds = true := by
  cases holds with
  | false => exact ⟨nofun, nofun⟩
  | true => exact ⟨fun _ => rfl, fun _ => rfl⟩

theorem Config.validate_eq_ok_iff {config : Config} :
    config.validate = .ok () ↔ config.Staged := by
  refine ⟨validate_staged, fun staged => ?_⟩
  rw [validate_eq, forM_eq_ok_iff]
  simp only [constraints, List.forall_mem_cons, Constraint.check,
    Constraint.lessThan, Constraint.atMost, mustBe_eq_ok_iff,
    decide_eq_true_iff]
  exact ⟨staged.stage1Ms, staged.stage2Ms, staged.stage3Ms,
    staged.stage1Delta, staged.stage2Delta, staged.stage3Delta,
    staged.stage4Delta, staged.stale, nofun⟩

variable {env : String → Option String}

def Setting.read (env : String → Option String) (setting : Setting) :
    Except ConfigError Nat :=
  parseEnvRange env setting.type setting.name setting.min setting.max
    setting.default

theorem Config.fromEnv_eq (env : String → Option String) :
    fromEnv env = do
      let values ← settings.mapM (Setting.read env)
      (ofValues values).validate
      return ofValues values := by
  simp only [settings, List.mapM_cons, List.mapM_nil, bind_assoc, pure_bind]
  rfl

/-- The environment gives the setting this value. -/
inductive Setting.Gives (env : String → Option String) (setting : Setting) :
    Nat → Prop
  | unset (none : env setting.name = none) : Gives env setting setting.default
  | set {raw : String} {value : Nat} (some : env setting.name = some raw)
      (spells : Spells raw.toList value)
      (within : setting.min ≤ value ∧ value ≤ setting.max) :
      Gives env setting value

/-- The range of a setting fits its type. -/
def Setting.Fits (setting : Setting) : Prop :=
  setting.max ≤ setting.type.maxValue

theorem fits_settings : ∀ setting ∈ settings, setting.Fits := by
  unfold Setting.Fits settings
  decide

theorem Setting.read_eq_ok_iff {setting : Setting} {value : Nat}
    (fits : setting.Fits) :
    setting.read env = .ok value ↔ setting.Gives env value := by
  unfold Setting.read parseEnvRange
  constructor
  · intro parsed
    split at parsed
    · rename_i none
      cases parsed
      exact .unset none
    · rename_i raw some
      split at parsed
      · cases parsed
      · rename_i read
        split at parsed
        · cases parsed
        · cases parsed
          exact .set some (parse_trim_eq_ok.mp read).1 (by omega)
  · intro gives
    cases gives with
    | unset none => rw [none]
    | set some spells within =>
        rw [some]
        have read := parse_trim_eq_ok.mpr
          ⟨spells, Nat.le_trans within.2 fits⟩
        simp only [read]
        rw [if_neg (by omega)]

theorem forall₂_read_iff {chosen : List Setting} {values : List Nat}
    (fits : ∀ setting ∈ chosen, setting.Fits) :
    List.Forall₂ (fun setting value => setting.read env = .ok value)
        chosen values ↔
      List.Forall₂ (Setting.Gives env) chosen values := by
  induction chosen generalizing values with
  | nil => simp only [List.forall₂_nil_left_iff]
  | cons setting rest induction =>
      obtain ⟨here, later⟩ := List.forall_mem_cons.mp fits
      simp only [List.forall₂_cons_left_iff, Setting.read_eq_ok_iff here,
        induction later]

theorem earlier_read_iff {before after : List Setting} {setting : Setting}
    (split : settings = before ++ setting :: after) :
    (∀ other ∈ before, ∃ value, other.read env = .ok value) ↔
      ∀ other ∈ before, ∃ value, other.Gives env value := by
  apply forall₂_congr
  intro other member
  apply exists_congr
  intro value
  apply Setting.read_eq_ok_iff
  apply fits_settings
  rw [split]
  exact List.mem_append_left _ member

theorem exists_values {relation : Setting → Nat → Prop} {values : List Nat}
    (given : List.Forall₂ relation settings values) :
    ∃ config : Config, values = config.values := by
  simp only [settings, List.forall₂_cons_left_iff,
    List.forall₂_nil_left_iff] at given
  obtain ⟨serverPort, _, _, ⟨workerCount, _, _, ⟨workerTickMs, _, _,
    ⟨staleClaimTimeoutMs, _, _, ⟨relaxationStage1Ms, _, _,
    ⟨relaxationStage2Ms, _, _, ⟨relaxationStage3Ms, _, _,
    ⟨relaxationStage4Ms, _, _, ⟨relaxationStage1Delta, _, _,
    ⟨relaxationStage2Delta, _, _, ⟨relaxationStage3Delta, _, _,
    ⟨relaxationStage4Delta, _, _, ⟨relaxationStage5Delta, _, _, rfl, rfl⟩,
    rfl⟩, rfl⟩, rfl⟩, rfl⟩, rfl⟩, rfl⟩, rfl⟩, rfl⟩, rfl⟩, rfl⟩, rfl⟩, rfl⟩ := given
  exact ⟨⟨serverPort, workerCount, workerTickMs, staleClaimTimeoutMs,
    relaxationStage1Ms, relaxationStage2Ms, relaxationStage3Ms,
    relaxationStage4Ms, relaxationStage1Delta, relaxationStage2Delta,
    relaxationStage3Delta, relaxationStage4Delta, relaxationStage5Delta⟩, rfl⟩

theorem Config.ofValues_values (config : Config) :
    ofValues config.values = config := rfl

theorem Config.fromEnv_eq_ok_iff {config : Config} :
    fromEnv env = .ok config ↔
      List.Forall₂ (Setting.Gives env) settings config.values ∧
        config.Staged := by
  rw [Config.fromEnv_eq, bind_eq_ok_iff]
  constructor
  · rintro ⟨values, read, accepted⟩
    have given := (forall₂_read_iff fits_settings).mp (mapM_eq_ok_iff.mp read)
    obtain ⟨other, rfl⟩ := exists_values given
    obtain ⟨⟨⟩, valid, ⟨⟩⟩ := bind_eq_ok_iff.mp accepted
    exact ⟨given, Config.validate_eq_ok_iff.mp valid⟩
  · rintro ⟨given, staged⟩
    refine ⟨config.values, mapM_eq_ok_iff.mpr
      ((forall₂_read_iff fits_settings).mpr given), ?_⟩
    rw [Config.ofValues_values, Config.validate_eq_ok_iff.mpr staged]
    rfl

/-- The service starts exactly with the environments in which every variable is
unset or spells a number of its range, and the numbers are in order. -/
theorem fromEnv_accepts {config : Config} :
    Config.fromEnv env = .ok config ↔
      List.Forall₂ (Setting.Gives env) settings config.values ∧
        config.Staged :=
  Config.fromEnv_eq_ok_iff

/-- The environment that spells every number of a configuration. -/
def Config.environment (config : Config) (name : String) : Option String :=
  ((settings.zip config.values).find? fun entry => entry.1.name = name).map
    fun entry => toString entry.2

theorem Config.Valid.given {config : Config} (valid : config.Valid) :
    List.Forall₂ (Setting.Gives config.environment) settings
      config.values := by
  obtain ⟨_, _, _, _, _, _, _, _, _, _, _, _, _, _, _⟩ := valid
  simp only [settings, Config.values, List.forall₂_cons, List.Forall₂.nil,
    and_true]
  refine ⟨?_, ?_, ?_, ?_, ?_, ?_, ?_, ?_, ?_, ?_, ?_, ?_, ?_⟩ <;>
    exact .set rfl (spells_toString _) (by dsimp only; omega)

/-- What a configuration is written as is read as that configuration, if and
only if it is valid. -/
theorem fromEnv_environment {config : Config} :
    Config.fromEnv config.environment = .ok config ↔ config.Valid := by
  refine ⟨Config.fromEnv_valid, fun valid => ?_⟩
  exact Config.fromEnv_eq_ok_iff.mpr ⟨valid.given, valid.staged⟩

/-- What can be wrong with a variable, and how it is put. -/
inductive Setting.Faulty (env : String → Option String) (setting : Setting) :
    ConfigError → Prop
  | unreadable {raw : String} {kind : IntErrorKind}
      (some : env setting.name = some raw)
      (unfit : ∀ value, Spells raw.toList value →
        setting.type.maxValue < value)
      (reason : parseUnsigned setting.type.maxValue (trim raw.toList) =
        .error kind) :
      Faulty env setting (.invalid setting.name
        ("a valid " ++ setting.type.typeName)
        (raw ++ " (" ++ kind.description ++ ")"))
  | outside {raw : String} {value : Nat} (some : env setting.name = some raw)
      (spells : Spells raw.toList value)
      (typed : value ≤ setting.type.maxValue)
      (beyond : value < setting.min ∨ setting.max < value) :
      Faulty env setting (.invalid setting.name
        ("a value between " ++ toString setting.min ++ " and " ++
          toString setting.max) (toString value))

theorem Setting.read_eq_error_iff {setting : Setting} {error : ConfigError} :
    setting.read env = .error error ↔ setting.Faulty env error := by
  unfold Setting.read parseEnvRange
  constructor
  · intro failed
    split at failed
    · cases failed
    · rename_i raw some
      split at failed
      · rename_i kind unread
        cases failed
        refine .unreadable some (fun value spells => ?_) unread
        by_contra fits
        have read := parse_trim_eq_ok.mpr ⟨spells, Nat.le_of_not_lt fits⟩
        cases unread.symm.trans read
      · rename_i value read
        obtain ⟨spells, typed⟩ := parse_trim_eq_ok.mp read
        split at failed
        · rename_i beyond
          cases failed
          exact .outside some spells typed beyond
        · cases failed
  · intro faulty
    cases faulty with
    | unreadable some _ reason =>
        rw [some]
        simp only [reason]
    | outside some spells typed beyond =>
        rw [some]
        simp only [parse_trim_eq_ok.mpr ⟨spells, typed⟩, if_pos beyond]

def Constraint.message (config : Config) (constraint : Constraint) : String :=
  constraint.left ++ " (" ++ toString (constraint.value config) ++
    ") must be " ++ constraint.relation ++ " " ++ constraint.right ++ " (" ++
    toString (constraint.limit config) ++ ")" ++ constraint.note

theorem Constraint.check_eq_error_iff {config : Config}
    {constraint : Constraint} {error : ConfigError} :
    constraint.check config = .error error ↔
      constraint.holds config = false ∧
        error = .constraint (constraint.message config) := by
  rw [Constraint.check, mustBe]
  cases constraint.holds config with
  | true => exact ⟨nofun, nofun⟩
  | false =>
      constructor
      · rintro ⟨⟩
        exact ⟨rfl, rfl⟩
      · rintro ⟨_, rfl⟩
        rfl

/-- What the service says when it does not start. -/
inductive Complaint (env : String → Option String) : ConfigError → Prop
  | faulty {before after : List Setting} {setting : Setting}
      {error : ConfigError} (split : settings = before ++ setting :: after)
      (earlier : ∀ other ∈ before, ∃ value, other.Gives env value)
      (faulty : setting.Faulty env error) : Complaint env error
  | unordered {config : Config} {before after : List Constraint}
      {constraint : Constraint}
      (given : List.Forall₂ (Setting.Gives env) settings config.values)
      (split : constraints = before ++ constraint :: after)
      (earlier : ∀ other ∈ before, other.holds config = true)
      (violated : constraint.holds config = false) :
      Complaint env (.constraint (constraint.message config))

/-- The error is about the first variable that is wrong, or if there is none,
about the first pair of numbers that is out of order. -/
theorem fromEnv_complains {error : ConfigError} :
    Config.fromEnv env = .error error ↔ Complaint env error := by
  rw [Config.fromEnv_eq, bind_eq_error_iff, mapM_eq_error_iff]
  constructor
  · rintro (⟨setting, ⟨before, after, split, earlier⟩, failed⟩ |
      ⟨values, read, failed⟩)
    · exact .faulty split ((earlier_read_iff split).mp earlier)
        (Setting.read_eq_error_iff.mp failed)
    · have given :=
        (forall₂_read_iff fits_settings).mp (mapM_eq_ok_iff.mp read)
      obtain ⟨config, rfl⟩ := exists_values given
      rw [Config.ofValues_values, bind_eq_error_iff,
        or_iff_left (by rintro ⟨_, _, ⟨⟩⟩), Config.validate_eq,
        forM_eq_error_iff] at failed
      obtain ⟨constraint, ⟨before, after, split, earlier⟩, failed⟩ := failed
      obtain ⟨violated, rfl⟩ := Constraint.check_eq_error_iff.mp failed
      refine .unordered given split (fun other member => ?_) violated
      obtain ⟨⟨⟩, passed⟩ := earlier other member
      exact mustBe_eq_ok_iff.mp passed
  · intro complaint
    cases complaint with
    | @faulty before after setting _ split earlier faulty =>
        exact .inl ⟨setting,
          ⟨before, after, split, (earlier_read_iff split).mpr earlier⟩,
          Setting.read_eq_error_iff.mpr faulty⟩
    | @unordered config before after constraint given split earlier violated =>
        refine .inr ⟨config.values, mapM_eq_ok_iff.mpr
          ((forall₂_read_iff fits_settings).mpr given), ?_⟩
        rw [Config.ofValues_values, bind_eq_error_iff, Config.validate_eq,
          forM_eq_error_iff]
        refine .inl ⟨constraint, ⟨before, after, split, fun other member => ?_⟩,
          Constraint.check_eq_error_iff.mpr ⟨violated, rfl⟩⟩
        exact ⟨(), mustBe_eq_ok_iff.mpr (earlier other member)⟩

end Matchmaker
