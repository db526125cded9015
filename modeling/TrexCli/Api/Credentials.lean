import Mathlib.Data.List.DropRight
import Mathlib.Data.List.Nodup
import TrexCli.Lib.Paths
import TrexCli.Models

/-!
# The tokens of the agent's configuration

`config.py`: the configured tokens, the file or environment variable each is read from, and
`resolve_secrets`, which reads them all and keeps only their digests. It runs when the agent starts
and once more for every reload, and what it finds in the environment and in the files may be
different each time.
-/

namespace TrexCli.Api

inductive Role where
  | operator | readOnly
  deriving DecidableEq, Repr

structure Principal where
  name : String
  role : Role
  deriving DecidableEq, Repr

/-- `env` or `file`: `exactly_one_secret_source` -/
inductive TokenSource where
  | env (name : String)
  | file (path : String)
  deriving DecidableEq

structure TokenConfig where
  name : String
  role : Role
  source : TokenSource
  deriving DecidableEq

def TokenConfig.principal (t : TokenConfig) : Principal := ⟨t.name, t.role⟩

/-- `AuthConfig`, as `unique_ports_and_tokens` leaves it. -/
structure AuthConfig where
  tokens : List TokenConfig
  names_nodup : (tokens.map TokenConfig.name).Nodup
  operator : ∃ t ∈ tokens, t.role = .operator

theorem exists_operator {tokens : List TokenConfig}
    (h : (tokens.any fun t => t.role = .operator) = true) : ∃ t ∈ tokens, t.role = .operator := by
  simpa using h

/-- The checks of `unique_ports_and_tokens` on the tokens. -/
def AuthConfig.validate (tokens : List TokenConfig) : Except String AuthConfig :=
  if hnames : (tokens.map TokenConfig.name).Nodup then
    if hoperator : (tokens.any fun t => t.role = .operator) = true then
      .ok ⟨tokens, hnames, exists_operator hoperator⟩
    else .error "auth.tokens must include at least one operator"
  else .error "auth token names must be unique"

/-- What `resolve_secrets` raises: `except (OSError, UnicodeError, ValueError)`. -/
inductive SecretError where
  | valueError (message : String)
  | osError
  | unicodeError

/-- A token file, by its `st_mode`, and what `read_text` makes of it. -/
structure TokenFile where
  regular : Bool
  mode : Nat
  text : Except SecretError Text

/-- The environment variables and the files that one `resolve_secrets` finds. -/
structure Secrets where
  env : String → Option Text
  file : String → Except SecretError TokenFile

/-- `_read_token` -/
def readToken (secrets : Secrets) (token : TokenConfig) : Except SecretError Text :=
  match token.source with
  | .env name =>
    match secrets.env name with
    | some (c :: value) => .ok (c :: value)
    | _ => .error (.valueError ("required token environment variable is missing: " ++ name))
  | .file path =>
    match secrets.file path with
    | .error e => .error e
    | .ok metadata =>
      if !metadata.regular then
        .error (.valueError ("token file is not a regular file: " ++ path))
      else if metadata.mode &&& 0o77 ≠ 0 then
        .error (.valueError ("token file must not be accessible by group or others: " ++ path))
      else
        match metadata.text with
        | .error e => .error e
        | .ok text =>
          let value := text.rdropWhile fun c => c = '\r' || c = '\n'
          if value = [] ∨ '\n' ∈ value ∨ '\r' ∈ value then
            .error (.valueError ("token file must contain exactly one non-empty line: " ++ path))
          else .ok value

/-- A value of `_token_digests`, with its key. -/
structure Credential (D : Type) where
  name : String
  digest : D
  role : Role

def Credential.principal {D : Type} (c : Credential D) : Principal := ⟨c.name, c.role⟩

variable {D : Type} (sha256 : Text → D)

/-- The loop of `resolve_secrets`. -/
def resolveTokens [DecidableEq D] (secrets : Secrets) :
    List TokenConfig → List (Credential D) → Except SecretError (List (Credential D))
  | [], values => .ok values
  | token :: tokens, values =>
    match readToken secrets token with
    | .error e => .error e
    | .ok value =>
      match values.find? fun c => c.digest = sha256 value with
      | some c =>
        .error (.valueError
          ("credentials " ++ c.name ++ " and " ++ token.name ++ " use the same token"))
      | none => resolveTokens secrets tokens (values ++ [⟨token.name, sha256 value, token.role⟩])

/-- `resolve_secrets`: the digests it stores, if it does not raise. -/
def resolveSecrets [DecidableEq D] (auth : AuthConfig) (secrets : Secrets) :
    Except SecretError (List (Credential D)) :=
  resolveTokens sha256 secrets auth.tokens []

/-- The token can be read, and the text is its value as far as its digest tells. -/
def Bears (secrets : Secrets) (token : TokenConfig) (supplied : Text) : Prop :=
  ∃ value, readToken secrets token = .ok value ∧ sha256 supplied = sha256 value

/-- The secrets give every token a value, and no two the same digest. -/
structure Complete (tokens : List TokenConfig) (secrets : Secrets) : Prop where
  read : ∀ t ∈ tokens, ∃ value, readToken secrets t = .ok value
  apart : ∀ t ∈ tokens, ∀ t' ∈ tokens, ∀ supplied, Bears sha256 secrets t supplied →
    Bears sha256 secrets t' supplied → t = t'

/-- The credentials are those of the tokens. -/
structure Resolved (tokens : List TokenConfig) (secrets : Secrets) (values : List (Credential D)) :
    Prop where
  credential : ∀ t ∈ tokens, ∀ value, readToken secrets t = .ok value →
    ⟨t.name, sha256 value, t.role⟩ ∈ values
  token : ∀ c ∈ values, ∃ t ∈ tokens, ∃ value, readToken secrets t = .ok value ∧
    c = ⟨t.name, sha256 value, t.role⟩
  read : ∀ t ∈ tokens, ∃ value, readToken secrets t = .ok value
  nodup : (values.map Credential.digest).Nodup

variable {sha256}

theorem Resolved.nil (secrets : Secrets) : Resolved sha256 [] secrets [] where
  credential := by simp
  token := by simp
  read := by simp
  nodup := List.nodup_nil

/-- One round of the loop. -/
theorem Resolved.concat [DecidableEq D] {secrets : Secrets} {done : List TokenConfig} {values : List (Credential D)}
    (h : Resolved sha256 done secrets values) {token : TokenConfig} {value : Text}
    (hvalue : readToken secrets token = .ok value)
    (hnew : values.find? (fun c => c.digest = sha256 value) = none) :
    Resolved sha256 (done ++ [token]) secrets (values ++ [⟨token.name, sha256 value, token.role⟩]) where
  credential t ht value' hvalue' := by
    rcases List.mem_append.mp ht with ht | ht
    · exact List.mem_append_left _ (h.credential t ht value' hvalue')
    · obtain rfl := List.mem_singleton.mp ht
      obtain rfl := Except.ok.inj (hvalue.symm.trans hvalue')
      exact List.mem_append_right _ (List.mem_singleton_self _)
  token c hc := by
    rcases List.mem_append.mp hc with hc | hc
    · obtain ⟨t, ht, rest⟩ := h.token c hc
      exact ⟨t, List.mem_append_left _ ht, rest⟩
    · exact ⟨token, by simp, value, hvalue, List.mem_singleton.mp hc⟩
  read t ht := by
    rcases List.mem_append.mp ht with ht | ht
    · exact h.read t ht
    · exact ⟨value, List.mem_singleton.mp ht ▸ hvalue⟩
  nodup := by
    rw [List.map_append, List.map_singleton, List.nodup_append_comm]
    refine List.nodup_cons.mpr ⟨fun hmem => ?_, h.nodup⟩
    obtain ⟨c, hc, hdigest⟩ := List.mem_map.mp hmem
    have hne := List.find?_eq_none.mp hnew c hc
    simp [hdigest] at hne

theorem resolveTokens_resolved [DecidableEq D] {secrets : Secrets} {tokens : List TokenConfig} :
    ∀ {done : List TokenConfig} {values digests : List (Credential D)},
      Resolved sha256 done secrets values →
      resolveTokens sha256 secrets tokens values = .ok digests →
      Resolved sha256 (done ++ tokens) secrets digests := by
  induction tokens with
  | nil =>
    intro done values digests h hrun
    obtain rfl := Except.ok.inj hrun
    rwa [List.append_nil]
  | cons token tokens ih =>
    intro done values digests h hrun
    rw [resolveTokens] at hrun
    cases hvalue : readToken secrets token with
    | error e =>
      rw [hvalue] at hrun
      cases hrun
    | ok value =>
      rw [hvalue] at hrun
      dsimp only at hrun
      cases hnew : values.find? fun c => c.digest = sha256 value with
      | some c =>
        rw [hnew] at hrun
        cases hrun
      | none =>
        rw [hnew] at hrun
        rw [← List.singleton_append, ← List.append_assoc]
        exact ih (h.concat hvalue hnew) hrun

/-- What `resolve_secrets` stores. -/
theorem resolved_of_resolveSecrets [DecidableEq D] {auth : AuthConfig} {secrets : Secrets}
    {digests : List (Credential D)} (h : resolveSecrets sha256 auth secrets = .ok digests) :
    Resolved sha256 auth.tokens secrets digests :=
  resolveTokens_resolved (.nil secrets) h

namespace Resolved

variable {tokens : List TokenConfig} {secrets : Secrets} {values : List (Credential D)}

/-- The search by digest finds the credential of the token that the text is the value of. -/
theorem find?_eq_some [DecidableEq D] (h : Resolved sha256 tokens secrets values) (supplied : Text)
    (principal : Principal) :
    (values.find? fun c => c.digest = sha256 supplied).map Credential.principal = some principal ↔
      ∃ t ∈ tokens, Bears sha256 secrets t supplied ∧ t.principal = principal := by
  constructor
  · intro hfind
    obtain ⟨c, hc, hprincipal⟩ := Option.map_eq_some_iff.mp hfind
    obtain ⟨t, ht, value, hvalue, rfl⟩ := h.token c (List.mem_of_find?_eq_some hc)
    have hdigest : sha256 value = sha256 supplied := by simpa using List.find?_some hc
    exact ⟨t, ht, ⟨value, hvalue, hdigest.symm⟩, hprincipal⟩
  · rintro ⟨t, ht, ⟨value, hvalue, hdigest⟩, rfl⟩
    have hmem := h.credential t ht value hvalue
    cases hfind : values.find? fun c => c.digest = sha256 supplied with
    | none =>
      have hne := List.find?_eq_none.mp hfind _ hmem
      simp [hdigest] at hne
    | some c =>
      have hfound : c.digest = sha256 supplied := by simpa using List.find?_some hfind
      have heq := List.inj_on_of_nodup_map h.nodup (List.mem_of_find?_eq_some hfind) hmem
        (hfound.trans hdigest)
      rw [heq]
      rfl

theorem ne_nil (h : Resolved sha256 tokens secrets values) {t : TokenConfig} (ht : t ∈ tokens) :
    values ≠ [] := by
  obtain ⟨value, hvalue⟩ := h.read t ht
  exact List.ne_nil_of_mem (h.credential t ht value hvalue)

/-- No two tokens have the same digest. -/
theorem complete (h : Resolved sha256 tokens secrets values)
    (hnames : (tokens.map TokenConfig.name).Nodup) : Complete sha256 tokens secrets where
  read := h.read
  apart t ht t' ht' supplied hbears hbears' := by
    obtain ⟨value, hvalue, hdigest⟩ := hbears
    obtain ⟨value', hvalue', hdigest'⟩ := hbears'
    have heq := List.inj_on_of_nodup_map h.nodup (h.credential t ht value hvalue)
      (h.credential t' ht' value' hvalue') (hdigest.symm.trans hdigest')
    exact List.inj_on_of_nodup_map hnames ht ht' (Credential.mk.inj heq).1

end Resolved

end TrexCli.Api
