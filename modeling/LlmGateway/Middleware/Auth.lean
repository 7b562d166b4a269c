import LlmGateway.Auth.Cached
import LlmGateway.Handler.Errors
import LlmGateway.Lib.Trim
import Mathlib

namespace LlmGateway

open Trim

/-- `unicode.IsSpace`. -/
def isSpace (c : Char) : Bool :=
  ['\t', '\n', '\x0b', '\x0c', '\r', ' ', '\u0085', '\u00a0', '\u1680',
    '\u2028', '\u2029', '\u202f', '\u205f', '\u3000'].contains c || ('\u2000' ≤ c && c ≤ '\u200a')

def bearerPrefix : List Char := "bearer ".toList

/-- `bearerToken`. Beside letters that have no other fold, as in this prefix,
`strings.EqualFold` looks past the case of ASCII letters alone; and a text that
begins with seven ASCII letters has them in its first seven bytes. -/
def bearerToken (header : String) : Option String :=
  let header := trim isSpace header.toList
  if header.length ≤ bearerPrefix.length ∨ (header.take bearerPrefix.length).map Char.toLower ≠ bearerPrefix then none
  else
    let token := trim isSpace (header.drop bearerPrefix.length)
    if token = [] then none else some (String.ofList token)

/-- A request that is turned away: the reason that is counted, and the answer. -/
structure Rejection where
  reason : Option String
  err : APIErr
deriving DecidableEq, Repr

/-- `writeAuthError`, with the reason for `RecordAuthFailure`. -/
def authFailure (reason msg : String) : Rejection :=
  ⟨some reason, ⟨401, "authentication_error", "invalid_api_key", msg⟩⟩

/-- The handler of `RequireAPIKey` up to the next one. -/
def requireAPIKey (authenticate : String → Except AuthError KeyInfo) (header : String) : Except Rejection KeyInfo :=
  if trim isSpace header.toList = [] then
    .error (authFailure "missing" "Missing or malformed Authorization header.")
  else match bearerToken header with
    | none => .error (authFailure "malformed" "Missing or malformed Authorization header.")
    | some token =>
      match authenticate token with
      | .error .invalidKey => .error (authFailure "unknown" "Invalid API key.")
      | .error (.store _) =>
        .error ⟨none, ⟨503, "internal_error", "internal_error", "authentication backend unavailable"⟩⟩
      | .ok info => .ok info

/-- The handler of `RequireAdminToken` up to the next one. -/
def requireAdminToken (expected header : String) : Except Rejection Unit :=
  if trim isSpace header.toList = [] then .error (authFailure "missing" "Invalid admin token.")
  else match bearerToken header with
    | none => .error (authFailure "malformed" "Invalid admin token.")
    | some token =>
      if expected.toUTF8.size = 0 ∨ token.toUTF8 ≠ expected.toUTF8 then
        .error (authFailure "unknown" "Invalid admin token.")
      else .ok ()

/-- The header is `Bearer` in some case, a blank and the token, with white space around
the token and the whole. -/
def Bearer (header token : String) : Prop :=
  ∃ before scheme gap after : List Char,
    header.toList = before ++ (scheme ++ ' ' :: gap ++ token.toList) ++ after ∧
      (∀ c ∈ before, isSpace c = true) ∧ (∀ c ∈ gap, isSpace c = true) ∧ (∀ c ∈ after, isSpace c = true) ∧
      scheme.map Char.toLower = "bearer".toList ∧ token ≠ "" ∧ Trimmed isSpace token.toList

theorem eq_of_toLower {c : Char} (letter : c.toLower = 'b') : c = 'b' ∨ c = 'B' := by
  unfold Char.toLower at letter
  split at letter
  · have value : c.val + 32 = 98 := congrArg Char.val letter
    have same : c.val + 32 - 32 = 98 - 32 := by rw [value]
    exact .inr (Char.ext (by simpa using same))
  · exact .inl letter

theorem eq_blank_of_toLower {c : Char} (blank : c.toLower = ' ') : c = ' ' := by
  unfold Char.toLower at blank
  split at blank
  · rename_i upper
    have value : c.val + 32 = 32 := congrArg Char.val blank
    have zero : c.val + 32 - 32 = 32 - 32 := by rw [value]
    have least := upper.1
    rw [show c.val = 0 by simpa using zero] at least
    exact absurd least (by decide)
  · exact blank

theorem bearerPrefix_eq : bearerPrefix = "bearer".toList ++ [' '] := by decide

/-- The prefix in some case is the scheme and a blank. -/
theorem map_toLower_eq_bearerPrefix {text : List Char} (fold : text.map Char.toLower = bearerPrefix) :
    ∃ scheme, text = scheme ++ [' '] ∧ scheme.map Char.toLower = "bearer".toList := by
  rw [bearerPrefix_eq] at fold
  obtain ⟨scheme, blank, rfl, letters, last⟩ := List.map_eq_append_iff.mp fold
  obtain ⟨c, rfl, lower⟩ := List.map_eq_singleton_iff.mp last
  exact ⟨scheme, by rw [eq_blank_of_toLower lower], letters⟩

theorem Bearer.of_bearerToken {header token : String} (found : bearerToken header = some token) :
    Bearer header token := by
  unfold bearerToken at found
  dsimp only at found
  split at found
  · cases found
  · rename_i formed
    split at found
    · cases found
    · rename_i filled
      cases Option.some.inj found
      push Not at formed
      obtain ⟨scheme, front, letters⟩ := map_toLower_eq_bearerPrefix formed.2
      obtain ⟨before, after, whole, outer, outer'⟩ := trim_spec isSpace header.toList
      obtain ⟨gap, rest, inner, spaces, spaces'⟩ :=
        trim_spec isSpace ((trim isSpace header.toList).drop bearerPrefix.length)
      refine ⟨before, scheme, gap, rest ++ after, ?_, outer, spaces, ?_, letters, ?_, ?_⟩
      · rw [String.toList_ofList]
        generalize left : trim isSpace (List.drop bearerPrefix.length (trim isSpace header.toList)) = token at *
        rw [← List.take_append_drop bearerPrefix.length (trim isSpace header.toList), front, inner] at whole
        rw [whole]
        simp
      · intro c member
        rcases List.mem_append.mp member with inside | outside
        · exact spaces' c inside
        · exact outer' c outside
      · intro empty
        exact filled (by simpa using congrArg String.toList empty)
      · rw [String.toList_ofList]
        exact trimmed_trim _ _

theorem Bearer.found {header token : String} (bearer : Bearer header token) : bearerToken header = some token := by
  obtain ⟨before, scheme, gap, after, whole, outer, spaces, outer', fold, filled, trimmed⟩ := bearer
  have letters : token.toList ≠ [] := fun empty => filled (String.toList_injective empty)
  have width : scheme.length = 6 := by simpa using congrArg List.length fold
  have core : Trimmed isSpace (scheme ++ ' ' :: gap ++ token.toList) := by
    constructor
    · intro c first
      cases scheme with
      | nil => cases width
      | cons b rest =>
        obtain rfl : b = c := Option.some.inj first
        have lower : b.toLower = 'b' := (List.cons.inj fold).1
        rcases eq_of_toLower lower with rfl | rfl <;> decide
    · intro c last
      rw [List.getLast?_append_of_ne_nil _ letters] at last
      exact trimmed.last c last
  have left : trim isSpace header.toList = scheme ++ ' ' :: gap ++ token.toList := by
    rw [whole]
    exact trim_eq core (by simp) outer outer'
  have cut : scheme ++ ' ' :: gap ++ token.toList = (scheme ++ [' ']) ++ (gap ++ token.toList) := by simp
  have front : (scheme ++ [' ']).length = bearerPrefix.length := by
    rw [List.length_append, width]
    decide
  have inner : trim isSpace (gap ++ token.toList) = token.toList := by
    have bare : trim isSpace (gap ++ token.toList ++ []) = token.toList := trim_eq trimmed letters spaces nofun
    rwa [List.append_nil] at bare
  have tail : 0 < token.toList.length := List.length_pos_iff.mpr letters
  unfold bearerToken
  dsimp only
  rw [left, cut, List.take_left' front, List.drop_left' front, inner, if_neg, if_neg letters, String.ofList_toList]
  push Not
  refine ⟨?_, ?_⟩
  · have total : (scheme ++ [' '] ++ (gap ++ token.toList)).length =
        bearerPrefix.length + (gap.length + token.toList.length) := by
      rw [List.length_append, front, List.length_append]
    omega
  · rw [List.map_append, fold, bearerPrefix_eq]
    decide

theorem Bearer.unique {header token token' : String} (one : Bearer header token) (other : Bearer header token') :
    token = token' :=
  Option.some.inj (one.found.symm.trans other.found)

/-- A blank header carries no token. -/
theorem Bearer.not_blank {header token : String} (bearer : Bearer header token) :
    trim isSpace header.toList ≠ [] := by
  intro blank
  have found := bearer.found
  simp [bearerToken, blank] at found

/-- What the gate of `/v1` makes of a token. -/
theorem requireAPIKey_of_bearer {header token : String} (bearer : Bearer header token)
    (authenticate : String → Except AuthError KeyInfo) :
    requireAPIKey authenticate header = match authenticate token with
      | .error .invalidKey => .error (authFailure "unknown" "Invalid API key.")
      | .error (.store _) =>
        .error ⟨none, ⟨503, "internal_error", "internal_error", "authentication backend unavailable"⟩⟩
      | .ok info => .ok info := by
  rw [requireAPIKey, if_neg bearer.not_blank, bearer.found]

theorem requireAPIKey_of_no_bearer {header : String} (bare : ∀ token, ¬ Bearer header token)
    (authenticate : String → Except AuthError KeyInfo) :
    ∃ reason, requireAPIKey authenticate header =
      .error (authFailure reason "Missing or malformed Authorization header.") := by
  have missing : bearerToken header = none := by
    cases found : bearerToken header with
    | none => rfl
    | some token => exact absurd (.of_bearerToken found) (bare token)
  unfold requireAPIKey
  split
  · exact ⟨_, rfl⟩
  · rw [missing]
    exact ⟨_, rfl⟩

theorem requireAPIKey_eq_ok {authenticate : String → Except AuthError KeyInfo} {header : String} {info : KeyInfo}
    (opened : requireAPIKey authenticate header = .ok info) :
    ∃ token, Bearer header token ∧ authenticate token = .ok info := by
  by_cases carried : ∃ token, Bearer header token
  · obtain ⟨token, bearer⟩ := carried
    refine ⟨token, bearer, ?_⟩
    rw [requireAPIKey_of_bearer bearer] at opened
    split at opened
    · cases opened
    · cases opened
    · rename_i accepted
      cases opened
      exact accepted
  · obtain ⟨_, refused⟩ := requireAPIKey_of_no_bearer (not_exists.mp carried) authenticate
    cases refused.symm.trans opened

/-- The gate of `/v1` opens iff the header carries a token that the authenticator
accepts, and hands on whose key it is. A header without a token and a token that is not
accepted are unauthorized, and only a failure of the store is the server's. -/
theorem requireAPIKey_exact (authenticate : String → Except AuthError KeyInfo) (header : String) :
    (∀ info, requireAPIKey authenticate header = .ok info ↔
      ∃ token, Bearer header token ∧ authenticate token = .ok info) ∧
    ((∃ rejection, requireAPIKey authenticate header = .error rejection ∧ rejection.err.status = 401) ↔
      ∀ token, Bearer header token → authenticate token = .error .invalidKey) ∧
    ((∃ rejection, requireAPIKey authenticate header = .error rejection ∧ rejection.err.status = 503) ↔
      ∃ token err, Bearer header token ∧ authenticate token = .error (.store err)) := by
  have opens (info : KeyInfo) : requireAPIKey authenticate header = .ok info ↔
      ∃ token, Bearer header token ∧ authenticate token = .ok info := by
    refine ⟨requireAPIKey_eq_ok, ?_⟩
    rintro ⟨token, bearer, accepted⟩
    rw [requireAPIKey_of_bearer bearer, accepted]
  refine ⟨opens, ?_⟩
  by_cases carried : ∃ token, Bearer header token
  · obtain ⟨token, bearer⟩ := carried
    have only (token' : String) : Bearer header token' ↔ token' = token :=
      ⟨fun other => other.unique bearer, fun same => same ▸ bearer⟩
    simp only [only, requireAPIKey_of_bearer bearer, forall_eq]
    cases answer : authenticate token with
    | ok info => simp [answer]
    | error err => cases err <;> simp [answer, authFailure]
  · have bare := not_exists.mp carried
    obtain ⟨reason, refused⟩ := requireAPIKey_of_no_bearer bare authenticate
    simp [bare, refused, authFailure]

/-- The gate of the admin routes opens iff a token is configured and the header carries
that very token. -/
theorem requireAdminToken_ok_iff (expected header : String) :
    requireAdminToken expected header = .ok () ↔ expected ≠ "" ∧ Bearer header expected := by
  constructor
  · intro opened
    unfold requireAdminToken at opened
    split at opened
    · cases opened
    · split at opened
      · cases opened
      · rename_i token found
        split at opened
        · cases opened
        · rename_i same
          push Not at same
          have equal : token = expected := String.toByteArray_inj.mp same.2
          subst equal
          refine ⟨fun empty => same.1 ?_, Bearer.of_bearerToken found⟩
          rw [empty]
          rfl
  · rintro ⟨filled, bearer⟩
    rw [requireAdminToken, if_neg bearer.not_blank, bearer.found]
    simp [filled]

end LlmGateway
