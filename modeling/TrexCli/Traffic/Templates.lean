import Mathlib.Algebra.GroupWithZero.Nat
import TrexCli.Lib.Json

/-!
# Traffic profiles

`TrafficProfileDocument` of `test_plan.py`: its flows, the selection of some of them, and the
references to parameters and roles in their values.
-/

namespace TrexCli.TrafficPlan

/-- What planning traffic raises: a `TestPlanError`, or the `ValidationError` of a scaled rate. -/
inductive TrafficPlanError where
  | testPlan (message : String)
  | validationError
  deriving DecidableEq

/-- `if not …: raise TestPlanError(…)` -/
def trafficCheck (p : Prop) [Decidable p] (message : String) : Except TrafficPlanError Unit :=
  if p then .ok () else .error (.testPlan message)

@[simp] theorem trafficCheck_eq_ok {p : Prop} [Decidable p] {message : String} :
    trafficCheck p message = .ok () ↔ p := by
  unfold trafficCheck
  by_cases hp : p
  · simp [hp]
  · simp [hp]

variable {F : Type}

/-! ### Flows -/

/-- `FrameTemplate`: one wire size, or several with their weights. -/
inductive FrameTemplate (F : Type) where
  | wireSize (size : JsonValue F) (given : size ≠ .null)
  | sizes (entries : List (JsonValue F × Nat)) (ne : entries ≠ [])
      (pos : ∀ entry ∈ entries, 1 ≤ entry.2)

/-- `frame_entries` -/
def FrameTemplate.entries : FrameTemplate F → List (JsonValue F × Nat)
  | wireSize size _ => [(size, 1)]
  | sizes entries _ _ => entries

/-- `frame_weight_total` -/
def FrameTemplate.weightTotal (frame : FrameTemplate F) : Nat :=
  (frame.entries.map Prod.snd).sum

theorem FrameTemplate.weightTotal_pos (frame : FrameTemplate F) : 0 < frame.weightTotal := by
  cases frame with
  | wireSize size => exact Nat.one_pos
  | sizes entries ne pos =>
    obtain ⟨entry, rest, rfl⟩ := List.exists_cons_of_ne_nil ne
    have hpos := pos entry List.mem_cons_self
    rw [weightTotal, FrameTemplate.entries, List.map_cons, List.sum_cons]
    omega

/-- `FlowTemplate` -/
structure FlowTemplate (F : Type) where
  fromRole : String
  toRole : String
  weight : Nat := 1
  frame : FrameTemplate F
  packet : List (Text × JsonValue F)
  pos : 1 ≤ weight

theorem one_le_defaultWeight : 1 ≤ 1 := le_rfl

/-- `TrafficProfileDocument`: its flows by name, in their order. -/
structure TrafficProfile (F : Type) where
  name : String
  flows : List (String × FlowTemplate F)
  ne : flows ≠ []
  names : (flows.map Prod.fst).Nodup

/-- `_select_flows` -/
def selectFlows (profile : TrafficProfile F) (requested : List String) :
    Except TrafficPlanError (List (String × FlowTemplate F)) :=
  if requested = [] then .ok profile.flows
  else do
    trafficCheck requested.Nodup "a flow may be selected only once"
    requested.mapM fun name =>
      match profile.flows.lookup name with
      | some flow => .ok (name, flow)
      | none => .error (.testPlan ("TrafficProfile has no flow " ++ name))

/-! ### References -/

/-- The values that references are to: the parameters, and the fields of the roles. -/
structure Context (F : Type) where
  params : List (Text × JsonValue F)
  roles : List (Text × List (Text × Text))

/-- A reference to a parameter or to a role, with the field after its name, if there is one. -/
structure Reference where
  param : Bool
  name : Text
  field : Option Text

/-- `([^}.]+)(?:\.([^}]+))?\}` -/
def parseTarget (param : Bool) (text : Text) : Option Reference :=
  let name := text.takeWhile fun c => c ≠ '.' && c ≠ '\x7d'
  if name = [] then none
  else
    match text.dropWhile fun c => c ≠ '.' && c ≠ '\x7d' with
    | ['\x7d'] => some ⟨param, name, none⟩
    | '.' :: rest =>
      let field := rest.takeWhile (· ≠ '\x7d')
      if field ≠ [] ∧ rest.dropWhile (· ≠ '\x7d') = ['\x7d'] then some ⟨param, name, some field⟩ else none
    | _ => none

/-- `_REFERENCE_RE` -/
def parseReference : Text → Option Reference
  | '$' :: '\x7b' :: 'p' :: 'a' :: 'r' :: 'a' :: 'm' :: '.' :: rest => parseTarget true rest
  | '$' :: '\x7b' :: 'r' :: 'o' :: 'l' :: 'e' :: '.' :: rest => parseTarget false rest
  | _ => none

/-- Whether a text has a dollar sign and an opening brace in it. -/
def mentionsReference : Text → Bool
  | '$' :: '\x7b' :: _ => true
  | _ :: rest => mentionsReference rest
  | [] => false

section Resolve

variable (context : Context F)

/-- The value of a reference; `value` is its text. -/
def resolveReference (value : Text) (reference : Reference) : Except TrafficPlanError (JsonValue F) :=
  if reference.param then
    match reference.field, context.params.lookup reference.name with
    | none, some value => .ok value
    | _, _ => .error (.testPlan ("unknown parameter reference: " ++ String.ofList value))
  else
    match reference.field with
    | none => .error (.testPlan ("role reference must select a field: " ++ String.ofList value))
    | some field =>
      match (context.roles.lookup reference.name).bind fun fields => fields.lookup field with
      | some text => .ok (.str text)
      | none => .error (.testPlan ("unresolved role reference: " ++ String.ofList value))

/-- `_resolve_value`, of a text -/
def resolveText (value : Text) : Except TrafficPlanError (JsonValue F) :=
  match parseReference value with
  | some reference => resolveReference context value reference
  | none =>
    if mentionsReference value then
      .error (.testPlan "references must occupy the complete YAML scalar")
    else .ok (.str value)

mutual

/-- `_resolve_value` -/
def resolveValue : JsonValue F → Except TrafficPlanError (JsonValue F)
  | .obj fields => (resolveFields fields).map .obj
  | .arr items => (resolveItems items).map .arr
  | .str value => resolveText context value
  | .null => .ok .null
  | .bool b => .ok (.bool b)
  | .int n => .ok (.int n)
  | .float x => .ok (.float x)

def resolveItems : List (JsonValue F) → Except TrafficPlanError (List (JsonValue F))
  | [] => .ok []
  | x :: xs => do
    let value ← resolveValue x
    let values ← resolveItems xs
    pure (value :: values)

def resolveFields : List (Text × JsonValue F) → Except TrafficPlanError (List (Text × JsonValue F))
  | [] => .ok []
  | (key, x) :: fields => do
    let value ← resolveValue x
    let values ← resolveFields fields
    pure ((key, value) :: values)

end

end Resolve

end TrexCli.TrafficPlan
