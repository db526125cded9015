import TrexCli.Capture.Catalog
import TrexCli.Lib.Checks
import TrexCli.Lib.YamlRoundTrip

/-!
# Parameters of a profile

The values of an intent reach a profile as texts: `_parameter_assignments` of `test_control.py` writes
each as JSON, and `_resolve_parameters` of `test_plan.py` reads what is written as YAML. YAML 1.1 does not
read every JSON text as the same value.
-/

namespace TrexCli.ProfileParameters

open JsonValue Yaml

/-- `TestPlanError`, an error of the YAML loader, and the `ValueError` of an integer with too many
digits. -/
inductive ParameterError where
  | testPlan (message : Text)
  | yaml
  | valueError

/-- `if not …: raise TestPlanError(…)` -/
def parameterCheck (p : Prop) [Decidable p] (message : Text) : Except ParameterError Unit :=
  if p then .ok () else .error (.testPlan message)

@[simp] theorem parameterCheck_eq_ok {p : Prop} [Decidable p] {message : Text} :
    parameterCheck p message = .ok () ↔ p := by
  unfold parameterCheck
  by_cases hp : p
  · simp [hp]
  · simp [hp]

variable {F : Type} [FloatRepr F]

/-! ### Definitions -/

inductive ParameterType where
  | integer
  | number
  | string
  | boolean
  deriving DecidableEq

def ParameterType.text : ParameterType → Text
  | integer => "integer".toList
  | number => "number".toList
  | string => "string".toList
  | boolean => "boolean".toList

/-- `ParameterDefinition`; a bound that is not a number bounds nothing. -/
structure ParameterDefinition (F : Type) where
  type : ParameterType
  default : JsonValue F
  required : Bool
  minimum : Option (WithBot (WithTop ℚ))
  maximum : Option (WithBot (WithTop ℚ))

/-- `_RESOURCE_NAME_RE` -/
def isResourceName (name : Text) : Bool := (name.splitOn '/').all Capture.nameComponent

/-- The parameters of a `TrafficProfileDocument`. -/
structure Profile (F : Type) where
  parameters : List (Text × ParameterDefinition F)
  nodup : (parameters.map Prod.fst).Nodup
  names : ∀ p ∈ parameters, isResourceName p.1 = true

/-! ### Validation -/

/-- `isinstance` of the type of a definition; a boolean is no number. -/
def hasType : ParameterType → JsonValue F → Bool
  | .integer, .int _ => true
  | .number, .int _ => true
  | .number, .float _ => true
  | .string, .str _ => true
  | .boolean, .bool _ => true
  | _, _ => false

/-- The number a value is, `isinstance(value, int | float) and not isinstance(value, bool)`. -/
def number : JsonValue F → Option ℚ
  | .int n => some n
  | .float x => some (FloatRepr.value x)
  | _ => none

/-- `value < definition.minimum` -/
def belowMinimum (d : ParameterDefinition F) (value : ℚ) : Bool :=
  d.minimum.any fun bound => ((value : WithTop ℚ) : WithBot (WithTop ℚ)) < bound

/-- `value > definition.maximum` -/
def aboveMaximum (d : ParameterDefinition F) (value : ℚ) : Bool :=
  d.maximum.any fun bound => bound < ((value : WithTop ℚ) : WithBot (WithTop ℚ))

/-- `_validate_parameter` -/
def validateParameter (name : Text) (d : ParameterDefinition F) (value : JsonValue F) :
    Except ParameterError Unit := do
  parameterCheck (hasType d.type value = true)
    ("profile parameter ".toList ++ name ++ " must be ".toList ++ d.type.text)
  parameterCheck ((number value).any (belowMinimum d) = false)
    ("profile parameter ".toList ++ name ++ " is below its minimum".toList)
  parameterCheck ((number value).any (aboveMaximum d) = false)
    ("profile parameter ".toList ++ name ++ " exceeds its maximum".toList)

/-! ### Texts -/

/-- `json.dumps(value, separators=(",", ":"), ensure_ascii=False)` of a number, a text or a truth value. -/
def dumpsParameter (value : JsonValue F) : Except ParameterError Text :=
  match value with
  | .int n => if (digitsOf n).length ≤ maxDigits then .ok (ofInt n) else .error .valueError
  | value => .ok (dumps value)

/-- `_parameter_assignments` -/
def parameterAssignments (parameters : List (Text × JsonValue F)) : Except ParameterError (List Text) :=
  parameters.mapM fun (name, value) => do
    let text ← dumpsParameter value
    .ok (name ++ '=' :: text)

/-- `text.split("=", 1)`, if there is a `=`. -/
def splitAssignment : Text → Option (Text × Text)
  | [] => none
  | '=' :: rest => some ([], rest)
  | c :: rest => (splitAssignment rest).map fun (name, value) => (c :: name, value)

variable (load : Text → Option (JsonValue F))

/-- One turn of the loop over the assignments. -/
def supply (profile : Profile F) (supplied : List (Text × JsonValue F)) (assignment : Text) :
    Except ParameterError (List (Text × JsonValue F)) :=
  match splitAssignment assignment with
  | none => .error (.testPlan "parameter must use name=value".toList)
  | some (name, raw) => do
    parameterCheck (name ∉ supplied.map Prod.fst)
      ("parameter supplied more than once: ".toList ++ name)
    parameterCheck (name ∈ profile.parameters.map Prod.fst)
      ("unknown profile parameter: ".toList ++ name)
    match load raw with
    | none => .error .yaml
    | some value => .ok (supplied ++ [(name, value)])

/-- The value of a parameter: the supplied one, else the default. -/
def chooseValue (supplied : List (Text × JsonValue F)) (name : Text) (d : ParameterDefinition F) :
    Except ParameterError (JsonValue F) :=
  match lookup supplied name with
  | some value => .ok value
  | none =>
    match d.default with
    | .null =>
      if d.required then
        .error (.testPlan ("required profile parameter is missing: ".toList ++ name))
      else .ok .null
    | default => .ok default

/-- One turn of the loop over the parameters. -/
def resolveParameter (supplied : List (Text × JsonValue F)) (p : Text × ParameterDefinition F) :
    Except ParameterError (Text × JsonValue F) := do
  let value ← chooseValue supplied p.1 p.2
  validateParameter p.1 p.2 value
  .ok (p.1, value)

/-- `_resolve_parameters` -/
def resolveParameters (profile : Profile F) (assignments : List Text) :
    Except ParameterError (List (Text × JsonValue F)) := do
  let supplied ← assignments.foldlM (supply load profile) []
  profile.parameters.mapM (resolveParameter supplied)

/-! ### Transport -/

/-- A value for each parameter, which its definition accepts. -/
structure Accepted (profile : Profile F) (parameters : List (Text × JsonValue F)) : Prop where
  keys : (parameters.map Prod.fst).Perm (profile.parameters.map Prod.fst)
  valid : ∀ p ∈ profile.parameters, ∀ value, (p.1, value) ∈ parameters →
    validateParameter p.1 p.2 value = .ok ()

/-- The values are resolved from their texts as they were. -/
def Transported (profile : Profile F) (parameters : List (Text × JsonValue F)) : Prop :=
  ∃ assignments, parameterAssignments parameters = .ok assignments ∧
    ∃ resolved, resolveParameters load profile assignments = .ok resolved ∧ resolved.Perm parameters

/-- The values whose JSON is read as themselves: integers that are written at all, floats whose text
has a point, and texts without the characters that the reader refuses or that the folding changes. -/
def Transportable : JsonValue F → Prop
  | .int n => (digitsOf n).length ≤ maxDigits
  | .float x => '.' ∈ FloatRepr.repr x
  | .str s => (∀ c ∈ s, 32 ≤ c.toNat → isPrintable c = true) ∧ Foldable s
  | _ => True

theorem not_mem_of_isResourceName {name : Text} (h : isResourceName name = true) : '=' ∉ name := by
  intro hmem
  obtain ⟨part, hpart, heq⟩ := Text.mem_splitOn (show '=' ≠ '/' by decide) hmem
  have hcomponent := List.all_eq_true.mp h part hpart
  cases part with
  | nil => cases heq
  | cons first rest =>
    simp only [Capture.nameComponent, Bool.and_eq_true, List.all_eq_true] at hcomponent
    rcases List.mem_cons.mp heq with rfl | heq
    · exact absurd hcomponent.1.1 (by decide)
    · exact absurd (hcomponent.2 '=' heq) (by decide)

theorem splitAssignment_append {name : Text} (h : '=' ∉ name) (raw : Text) :
    splitAssignment (name ++ '=' :: raw) = some (name, raw) := by
  induction name with
  | nil => rfl
  | cons c name ih =>
    rw [List.mem_cons, not_or] at h
    rw [List.cons_append, splitAssignment, ih h.2, Option.map_some]
    exact fun heq => h.1 heq.symm

variable {load} {profile : Profile F}

omit [FloatRepr F] in
/-- A new parameter of the profile is supplied if its text can be read. -/
theorem supply_eq_ok_iff {supplied supplied' : List (Text × JsonValue F)} {name raw : Text}
    (hname : name ∈ profile.parameters.map Prod.fst) (hnew : name ∉ supplied.map Prod.fst) :
    supply load profile supplied (name ++ '=' :: raw) = .ok supplied' ↔
      ∃ value, load raw = some value ∧ supplied' = supplied ++ [(name, value)] := by
  obtain ⟨p, hp, rfl⟩ := List.mem_map.mp hname
  rw [supply, splitAssignment_append (not_mem_of_isResourceName (profile.names p hp))]
  show (parameterCheck _ _ >>= fun _ => parameterCheck _ _ >>= fun _ => _) = .ok supplied' ↔ _
  rw [check_bind_eq_ok, check_bind_eq_ok, parameterCheck_eq_ok, parameterCheck_eq_ok,
    and_iff_right hnew, and_iff_right hname]
  cases load raw with
  | none => simp
  | some value => simp [eq_comm]

/-- What is read of an assignment. -/
def Reads (load : Text → Option (JsonValue F)) (t : Text × Text) (p : Text × JsonValue F) : Prop :=
  p.1 = t.1 ∧ load t.2 = some p.2

omit [FloatRepr F] in
/-- Assignments to different parameters are supplied if each text can be read. -/
theorem foldlM_supply_eq_ok_iff {texts : List (Text × Text)} {supplied supplied' : List (Text × JsonValue F)}
    (hnames : ∀ t ∈ texts, t.1 ∈ profile.parameters.map Prod.fst)
    (hnodup : (supplied.map Prod.fst ++ texts.map Prod.fst).Nodup) :
    (texts.map fun t => t.1 ++ '=' :: t.2).foldlM (supply load profile) supplied = .ok supplied' ↔
      ∃ values, List.Forall₂ (Reads load) texts values ∧ supplied' = supplied ++ values := by
  induction texts generalizing supplied with
  | nil =>
    show Except.ok supplied = .ok supplied' ↔ _
    simp [eq_comm]
  | cons t texts ih =>
    have hnew : t.1 ∉ supplied.map Prod.fst := fun hmem =>
      (List.nodup_append.mp hnodup).2.2 _ hmem _ List.mem_cons_self rfl
    have hrest : ∀ value, ((supplied ++ [(t.1, value)]).map Prod.fst ++ texts.map Prod.fst).Nodup := by
      intro value
      simpa using hnodup
    rw [List.map_cons, List.foldlM_cons, bind_eq_ok]
    simp only [supply_eq_ok_iff (hnames t List.mem_cons_self) hnew, List.forall₂_cons_left_iff]
    have hnames' : ∀ u ∈ texts, u.1 ∈ profile.parameters.map Prod.fst := fun u hu =>
      hnames u (List.mem_cons_of_mem t hu)
    constructor
    · rintro ⟨_, ⟨value, hvalue, rfl⟩, hok⟩
      obtain ⟨values, hvalues, rfl⟩ := (ih hnames' (hrest value)).mp hok
      exact ⟨_, ⟨(t.1, value), values, ⟨rfl, hvalue⟩, hvalues, rfl⟩, by simp⟩
    · rintro ⟨_, ⟨⟨name, value⟩, values, ⟨hname, hvalue⟩, hvalues, rfl⟩, rfl⟩
      obtain rfl : name = t.1 := hname
      exact ⟨_, ⟨value, hvalue, rfl⟩, (ih hnames' (hrest value)).mpr ⟨values, hvalues, by simp⟩⟩

theorem dumpsParameter_eq_ok_iff {value : JsonValue F} {text : Text} :
    dumpsParameter value = .ok text ↔
      (∀ n, value = .int n → (digitsOf n).length ≤ maxDigits) ∧ text = dumps value := by
  cases value with
  | int n =>
    show (if (digitsOf n).length ≤ maxDigits then Except.ok (ofInt n)
      else .error ParameterError.valueError) = .ok text ↔ _
    by_cases h : (digitsOf n).length ≤ maxDigits
    · simp [h, dumps, eq_comm]
    · simp [h]
  | _ => simp [dumpsParameter, eq_comm]

theorem parameterAssignments_eq_ok_iff {parameters : List (Text × JsonValue F)}
    {assignments : List Text} :
    parameterAssignments parameters = .ok assignments ↔
      (∀ p ∈ parameters, ∀ n, p.2 = .int n → (digitsOf n).length ≤ maxDigits) ∧
        assignments = (parameters.map fun p => (p.1, dumps p.2)).map fun t => t.1 ++ '=' :: t.2 := by
  have hone : ∀ (p : Text × JsonValue F) (assignment : Text),
      (dumpsParameter p.2 >>= fun text => .ok (p.1 ++ '=' :: text)) = Except.ok assignment ↔
        (∀ n, p.2 = .int n → (digitsOf n).length ≤ maxDigits) ∧
          p.1 ++ '=' :: dumps p.2 = assignment := by
    intro p assignment
    simp only [bind_eq_ok, dumpsParameter_eq_ok_iff, Except.ok.injEq]
    exact ⟨fun ⟨_, ⟨hdigits, rfl⟩, heq⟩ => ⟨hdigits, heq⟩,
      fun ⟨hdigits, heq⟩ => ⟨_, ⟨hdigits, rfl⟩, heq⟩⟩
  rw [parameterAssignments, mapM_eq_ok]
  simp only [hone]
  rw [List.forall₂_and_left, List.map_map, eq_comm (a := assignments),
    ← List.forall₂_map_left_iff (R := Eq), List.forall₂_eq_eq_eq]
  rfl

omit [FloatRepr F] in
/-- The entries of a table with distinct keys. -/
theorem lookup_of_mem {fields : List (Text × JsonValue F)} (h : (fields.map Prod.fst).Nodup)
    {key : Text} {value : JsonValue F} (hmem : (key, value) ∈ fields) :
    lookup fields key = some value := by
  induction fields with
  | nil => cases hmem
  | cons field fields ih =>
    rw [List.map_cons, List.nodup_cons] at h
    rcases List.mem_cons.mp hmem with rfl | hmem
    · simp [lookup]
    · have hne : field.1 ≠ key := by
        rintro rfl
        exact h.1 (List.mem_map.mpr ⟨_, hmem, rfl⟩)
      have hih := ih h.2 hmem
      rw [lookup] at hih ⊢
      rwa [List.find?_cons_of_neg (by simpa using hne)]

/-- Which values are read back from their JSON. -/
theorem load_dumps_iff (L : SafeLoader load) {value : JsonValue F}
    (hrepr : ∀ x : F, ∃ sign whole fraction exponent,
      IsRepr (FloatRepr.repr x) sign whole fraction exponent)
    {type : ParameterType} (htype : hasType type value = true) :
    (∀ n, value = .int n → (digitsOf n).length ≤ maxDigits) ∧ load (dumps value) = some value ↔
      Transportable value := by
  cases value with
  | null => cases type <;> cases htype
  | arr items => cases type <;> cases htype
  | obj fields => cases type <;> cases htype
  | bool b =>
    refine iff_of_true ⟨fun n h => (by cases h), ?_⟩ trivial
    cases b with
    | true => exact L.true_word
    | false => exact L.false_word
  | int n =>
    have hdigits : (∀ m, (.int n : JsonValue F) = .int m → (digitsOf m).length ≤ maxDigits) ↔
        (digitsOf n).length ≤ maxDigits :=
      ⟨fun h => h n rfl, fun h m heq => by cases heq; exact h⟩
    rw [hdigits]
    exact ⟨fun h => h.1, fun h => ⟨h, L.load_int h⟩⟩
  | float x =>
    obtain ⟨sign, whole, fraction, exponent, hx⟩ := hrepr x
    rw [and_iff_right fun n h => by cases h]
    exact L.load_float_iff hx
  | str s =>
    rw [and_iff_right fun n h => by cases h]
    exact L.load_quote_iff s

/-- A supplied value that its definition accepts is the resolved one. -/
theorem resolveParameter_of_mem {supplied : List (Text × JsonValue F)}
    (h : (supplied.map Prod.fst).Nodup) {p : Text × ParameterDefinition F} {value : JsonValue F}
    (hmem : (p.1, value) ∈ supplied) {r : Text × JsonValue F} :
    resolveParameter supplied p = .ok r ↔
      validateParameter p.1 p.2 value = .ok () ∧ r = (p.1, value) := by
  have hchoose : chooseValue supplied p.1 p.2 = .ok value := by
    rw [chooseValue, lookup_of_mem h hmem]
  rw [resolveParameter, hchoose]
  show (validateParameter p.1 p.2 value >>= fun _ => .ok (p.1, value)) = .ok r ↔ _
  rw [check_bind_eq_ok, Except.ok.injEq, eq_comm (a := (p.1, value))]

omit [FloatRepr F] in
theorem names_of_reads {texts : List (Text × Text)} {values : List (Text × JsonValue F)}
    (h : List.Forall₂ (Reads load) texts values) : values.map Prod.fst = texts.map Prod.fst := by
  induction h with
  | nil => rfl
  | cons hread _ ih => rw [List.map_cons, List.map_cons, ih, hread.1]

omit [FloatRepr F] in
theorem value_unique {fields : List (Text × JsonValue F)} (h : (fields.map Prod.fst).Nodup)
    {key : Text} {value value' : JsonValue F} (hmem : (key, value) ∈ fields)
    (hmem' : (key, value') ∈ fields) : value = value' := by
  have hlookup := lookup_of_mem h hmem
  rw [lookup_of_mem h hmem'] at hlookup
  exact (Option.some.inj hlookup).symm

namespace Accepted

variable {parameters : List (Text × JsonValue F)} (h : Accepted profile parameters)
include h

theorem nodup : (parameters.map Prod.fst).Nodup := h.keys.nodup_iff.mpr profile.nodup

theorem exists_definition {p : Text × JsonValue F} (hp : p ∈ parameters) :
    ∃ q ∈ profile.parameters, q.1 = p.1 ∧ validateParameter q.1 q.2 p.2 = .ok () := by
  obtain ⟨q, hq, heq⟩ := List.mem_map.mp (h.keys.mem_iff.mp (List.mem_map_of_mem hp))
  exact ⟨q, hq, heq, h.valid q hq p.2 (heq ▸ hp)⟩

theorem exists_value {q : Text × ParameterDefinition F} (hq : q ∈ profile.parameters) :
    ∃ value, (q.1, value) ∈ parameters := by
  obtain ⟨p, hp, heq⟩ := List.mem_map.mp (h.keys.mem_iff.mpr (List.mem_map_of_mem hq))
  exact ⟨p.2, heq ▸ hp⟩

theorem exists_type {p : Text × JsonValue F} (hp : p ∈ parameters) :
    ∃ type, hasType type p.2 = true := by
  obtain ⟨q, _, _, hvalid⟩ := h.exists_definition hp
  rw [validateParameter, check_bind_eq_ok, parameterCheck_eq_ok] at hvalid
  exact ⟨q.2.type, hvalid.1⟩

/-- What the assignments supply. -/
theorem foldlM_supply {supplied : List (Text × JsonValue F)} :
    ((parameters.map fun p => (p.1, dumps p.2)).map fun t => t.1 ++ '=' :: t.2).foldlM
        (supply load profile) [] = .ok supplied ↔
      List.Forall₂ (fun p v => Reads load (p.1, dumps p.2) v) parameters supplied := by
  have hnames : (parameters.map fun p => (p.1, dumps p.2)).map Prod.fst = parameters.map Prod.fst := by
    rw [List.map_map]
    rfl
  have htexts : ∀ t ∈ parameters.map fun p => (p.1, dumps p.2),
      t.1 ∈ profile.parameters.map Prod.fst := by
    intro t ht
    rw [← h.keys.mem_iff, ← hnames]
    exact List.mem_map_of_mem ht
  have hnodup : (([] : List (Text × JsonValue F)).map Prod.fst ++
      (parameters.map fun p => (p.1, dumps p.2)).map Prod.fst).Nodup := by
    rw [hnames]
    exact h.nodup
  rw [foldlM_supply_eq_ok_iff htexts hnodup, ← List.forall₂_map_left_iff]
  simp

/-- A resolved value was read from its text. -/
theorem load_eq_some {supplied resolved : List (Text × JsonValue F)}
    (hsupplied : List.Forall₂ (fun p v => Reads load (p.1, dumps p.2) v) parameters supplied)
    (hresolved : profile.parameters.mapM (resolveParameter supplied) = .ok resolved)
    (hperm : resolved.Perm parameters) {p : Text × JsonValue F} (hp : p ∈ parameters) :
    load (dumps p.2) = some p.2 := by
  obtain ⟨⟨_, value⟩, hvalue, rfl, hload⟩ := exists_right_of_forall₂ hsupplied hp
  have hnodup : (supplied.map Prod.fst).Nodup := by
    have hnames := names_of_reads (List.forall₂_map_left_iff.mpr hsupplied)
    rw [hnames, List.map_map]
    exact h.nodup
  obtain ⟨q, hq, heq, _⟩ := h.exists_definition hp
  obtain ⟨r, hr, hok⟩ := exists_right_of_forall₂ (mapM_eq_ok.mp hresolved) hq
  obtain rfl := ((resolveParameter_of_mem hnodup (heq ▸ hvalue)).mp hok).2
  have hmem : (p.1, value) ∈ parameters := heq ▸ hperm.mem_iff.mp hr
  exact hload.trans (congrArg some (value_unique h.nodup hmem hp))

/-- Supplied values are the resolved ones. -/
theorem resolve : ∃ resolved, profile.parameters.mapM (resolveParameter parameters) = .ok resolved ∧
    resolved.Perm parameters := by
  have hvalue : ∀ q ∈ profile.parameters, (q.1, (lookup parameters q.1).getD .null) ∈ parameters := by
    intro q hq
    obtain ⟨value, hmem⟩ := h.exists_value hq
    rw [lookup_of_mem h.nodup hmem]
    exact hmem
  have hok := fun q (hq : q ∈ profile.parameters) =>
    (resolveParameter_of_mem h.nodup (hvalue q hq)).mpr ⟨h.valid q hq _ (hvalue q hq), rfl⟩
  refine ⟨_, mapM_eq_ok_map hok, ?_⟩
  have hnames : (profile.parameters.map fun q => (q.1, (lookup parameters q.1).getD .null)).map
      Prod.fst = profile.parameters.map Prod.fst := by
    rw [List.map_map]
    rfl
  have hnodup := profile.nodup
  rw [← hnames] at hnodup
  refine (List.perm_ext_iff_of_nodup hnodup.of_map h.nodup.of_map).mpr fun r => ?_
  constructor
  · intro hr
    obtain ⟨q, hq, rfl⟩ := List.mem_map.mp hr
    exact hvalue q hq
  · intro hr
    obtain ⟨q, hq, heq, _⟩ := h.exists_definition hr
    refine List.mem_map.mpr ⟨q, hq, ?_⟩
    have hmem : (q.1, r.2) ∈ parameters := by
      rw [heq]
      exact hr
    rw [value_unique h.nodup (hvalue q hq) hmem, heq]

end Accepted

/-- Values reach a profile as they are, exactly when each of them is read back from its JSON. -/
theorem transported_iff (L : SafeLoader load)
    (hrepr : ∀ x : F, ∃ sign whole fraction exponent,
      IsRepr (FloatRepr.repr x) sign whole fraction exponent)
    {parameters : List (Text × JsonValue F)} (h : Accepted profile parameters) :
    Transported load profile parameters ↔ ∀ p ∈ parameters, Transportable p.2 := by
  have hload : ∀ p ∈ parameters,
      ((∀ n, p.2 = .int n → (digitsOf n).length ≤ maxDigits) ∧ load (dumps p.2) = some p.2 ↔
        Transportable p.2) := by
    intro p hp
    obtain ⟨type, htype⟩ := h.exists_type hp
    exact load_dumps_iff L hrepr htype
  constructor
  · rintro ⟨assignments, hassignments, resolved, hresolved, hperm⟩ p hp
    obtain ⟨hdigits, rfl⟩ := parameterAssignments_eq_ok_iff.mp hassignments
    rw [resolveParameters, bind_eq_ok] at hresolved
    obtain ⟨supplied, hsupplied, hresolved⟩ := hresolved
    rw [h.foldlM_supply] at hsupplied
    exact (hload p hp).mp ⟨hdigits p hp, h.load_eq_some hsupplied hresolved hperm hp⟩
  · intro hall
    have hread := fun p hp => (hload p hp).mpr (hall p hp)
    have hassignments := parameterAssignments_eq_ok_iff.mpr ⟨fun p hp => (hread p hp).1, rfl⟩
    have hsupplied : List.Forall₂ (fun p v => Reads load (p.1, dumps p.2) v) parameters parameters :=
      List.forall₂_same.mpr fun p hp => ⟨rfl, (hread p hp).2⟩
    obtain ⟨resolved, hresolved, hperm⟩ := h.resolve
    refine ⟨_, hassignments, resolved, ?_, hperm⟩
    rw [resolveParameters, h.foldlM_supply.mpr hsupplied]
    exact hresolved

/-! ### A rate of ten millionths -/

/-- The floats `0.5` and `1e-05`. -/
inductive SampleFloat where
  | half
  | tenMicro
  deriving DecidableEq

namespace SampleFloat

def text : SampleFloat → Text
  | half => ['0', '.', '5']
  | tenMicro => ['1', 'e', '-', '0', '5']

def ofText (text : Text) : Option SampleFloat :=
  if text = half.text then some half else if text = tenMicro.text then some tenMicro else none

def rational : SampleFloat → ℚ
  | half => 1 / 2
  | tenMicro => 1 / 100000

instance : FloatRepr SampleFloat where
  repr := text
  ofLiteral := ofText
  ofInt _ := none
  value := rational
  repr_literal x := by cases x <;> decide
  repr_fraction x := by cases x <;> decide
  repr_chars x := by cases x <;> exact List.all_eq_true.mp (by decide)
  ofLiteral_repr x := by cases x <;> decide

theorem isRepr (x : SampleFloat) : ∃ sign whole fraction exponent,
    IsRepr (FloatRepr.repr x) sign whole fraction exponent := by
  cases x with
  | half =>
    exact ⟨[], ['0'], ['.', '5'], [], rfl, Or.inl rfl, by simp, List.all_eq_true.mp (by decide),
      Or.inr ⟨['5'], rfl, List.all_eq_true.mp (by decide)⟩, rfl⟩
  | tenMicro =>
    exact ⟨[], ['1'], [], ['e', '-', '0', '5'], rfl, Or.inl rfl, by simp,
      List.all_eq_true.mp (by decide), Or.inl rfl, rfl⟩

end SampleFloat

/-- A profile with one number, `rate`. -/
def sampleProfile : Profile SampleFloat where
  parameters := [("rate".toList, ⟨.number, .null, true, some 0, some 1⟩)]
  nodup := by simp
  names := by decide

theorem accepted_sample (x : SampleFloat) : Accepted sampleProfile [("rate".toList, .float x)] where
  keys := List.Perm.refl _
  valid := by
    intro p hp value hvalue
    obtain rfl := List.mem_singleton.mp hp
    obtain rfl : value = .float x := by simpa using hvalue
    rw [validateParameter, check_bind_eq_ok, check_bind_eq_ok, parameterCheck_eq_ok,
      parameterCheck_eq_ok, parameterCheck_eq_ok]
    cases x <;> decide +kernel

/-- A half arrives. -/
theorem transported_half :
    Transported loadScalar sampleProfile [("rate".toList, .float SampleFloat.half)] :=
  (transported_iff safeLoader_loadScalar SampleFloat.isRepr (accepted_sample .half)).mpr fun p hp => by
    obtain rfl := List.mem_singleton.mp hp
    show '.' ∈ SampleFloat.half.text
    decide

/-- Ten millionths are written as `1e-05`, which is read as a text, and a text is no number. -/
theorem not_transported_tenMicro :
    Accepted sampleProfile [("rate".toList, .float SampleFloat.tenMicro)] ∧
      ¬Transported loadScalar sampleProfile [("rate".toList, .float SampleFloat.tenMicro)] := by
  refine ⟨accepted_sample .tenMicro, ?_⟩
  rintro ⟨assignments, hassignments, resolved, hresolved, _⟩
  have htext : parameterAssignments [("rate".toList, .float SampleFloat.tenMicro)] =
      .ok ["rate=1e-05".toList] := rfl
  rw [htext] at hassignments
  obtain rfl := Except.ok.inj hassignments
  have herror : resolveParameters loadScalar sampleProfile ["rate=1e-05".toList] =
      .error (.testPlan "profile parameter rate must be number".toList) := rfl
  rw [herror] at hresolved
  cases hresolved

end TrexCli.ProfileParameters
