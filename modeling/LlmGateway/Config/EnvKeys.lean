import LlmGateway.Config.Load
import LlmGateway.Lib.Doubling
import Mathlib

namespace LlmGateway

open Doubling

def envPrefix : List Char := "GATEWAY_".toList

/-- `strings.TrimPrefix`. -/
def trimPrefix (front text : List Char) : List Char := if front <+: text then text.drop front.length else text

/-- The callback that `Load` gives to the environment provider: the key that a variable
sets. `strings.ToLower` and `Char.toLower` agree on ASCII text. -/
def envKey (name : String) : String :=
  let key := (trimPrefix envPrefix name.toList).map Char.toLower
  String.ofList (collapse '_' '.' key)

example : envKey "GATEWAY_AUTH__ADMIN_TOKEN" = "auth.admin_token" := by decide

/-- What the name of a shell variable is made of. -/
def wordChar (c : Char) : Bool := c.isAlphanum || c == '_'

/-- What the name of a section or a field is made of. -/
def keyChar (c : Char) : Bool := c.isLower || c.isDigit || c == '_'

theorem ascii_induction {P : Char → Prop} (small : ∀ n < 128, P (Char.ofNat n)) {c : Char} (ascii : c.toNat < 128) :
    P c := by
  simpa using small c.toNat ascii

theorem ascii_of_wordChar {c : Char} (word : wordChar c = true) : c.toNat < 128 := by
  rw [wordChar, Bool.or_eq_true, beq_iff_eq] at word
  rcases word with letter | rfl
  · simp [Char.isAlphanum, Char.isAlpha, Char.isUpper, Char.isLower, Char.isDigit, UInt32.le_iff_toNat_le] at letter
    have : c.toNat = c.val.toNat := rfl
    omega
  · decide

theorem wordChar_of_keyChar {c : Char} (key : keyChar c = true) : wordChar c = true := by
  simp only [keyChar, wordChar, Char.isAlphanum, Char.isAlpha, Bool.or_eq_true] at key ⊢
  tauto

theorem keyChar_toLower {c : Char} (word : wordChar c = true) : keyChar c.toLower = true :=
  ascii_induction (P := fun c => wordChar c = true → keyChar c.toLower = true)
    (by decide) (ascii_of_wordChar word) word

theorem wordChar_toUpper {c : Char} (key : keyChar c = true) : wordChar c.toUpper = true :=
  ascii_induction (P := fun c => keyChar c = true → wordChar c.toUpper = true)
    (by decide) (ascii_of_wordChar (wordChar_of_keyChar key)) key

theorem toLower_toUpper {c : Char} (key : keyChar c = true) : c.toUpper.toLower = c :=
  ascii_induction (P := fun c => keyChar c = true → c.toUpper.toLower = c)
    (by decide) (ascii_of_wordChar (wordChar_of_keyChar key)) key

/-- A variable that the provider picks up and that a shell can set. -/
structure EnvName where
  text : String
  begins : envPrefix <+: text.toList
  word : ∀ c ∈ text.toList, wordChar c = true

/-- A key that some variable sets: the name of a section does not end in an underscore,
no name has two of them in a row, and none has a letter that no variable gives. -/
structure Settable (key : String) : Prop where
  clear : Unambiguous '_' '.' key.toList
  plain : ∀ c ∈ key.toList, c ≠ '.' → keyChar c = true

theorem settable_iff {key : String} :
    Settable key ↔ Unambiguous '_' '.' key.toList ∧ (key.toList.all fun c => c == '.' || keyChar c) = true := by
  have letter (c : Char) : (c == '.' || keyChar c) = true ↔ (c ≠ '.' → keyChar c = true) := by
    rw [Bool.or_eq_true, beq_iff_eq, or_iff_not_imp_left]
  simp only [List.all_eq_true, letter]
  exact ⟨fun ⟨clear, plain⟩ => ⟨clear, plain⟩, fun ⟨clear, plain⟩ => ⟨clear, plain⟩⟩

instance (key : String) : Decidable (Settable key) := decidable_of_iff' _ settable_iff

theorem Settable.expanded {key : String} (settable : Settable key) :
    ∀ c ∈ expand '_' '.' key.toList, keyChar c = true := by
  intro c member
  rcases mem_expand.mp member with ⟨member, plain⟩ | ⟨-, rfl⟩
  · exact settable.plain c member plain
  · rfl

/-- The variable for a key, in capitals as the documentation has it. -/
def Settable.name {key : String} (settable : Settable key) : EnvName where
  text := String.ofList (envPrefix ++ (expand '_' '.' key.toList).map Char.toUpper)
  begins := by simp
  word := by
    intro c member
    rw [String.toList_ofList, List.mem_append, List.mem_map] at member
    rcases member with front | ⟨lower, member, rfl⟩
    · exact List.all_eq_true.mp (by decide : envPrefix.all wordChar = true) c front
    · exact wordChar_toUpper (settable.expanded lower member)

def EnvName.lower (name : EnvName) : List Char := name.text.toList.map Char.toLower

theorem Settable.lower_name {key : String} (settable : Settable key) :
    settable.name.lower = envPrefix.map Char.toLower ++ expand '_' '.' key.toList := by
  have back : ((expand '_' '.' key.toList).map Char.toUpper).map Char.toLower = expand '_' '.' key.toList := by
    rw [List.map_map]
    exact (List.map_congr_left fun c member => toLower_toUpper (settable.expanded c member)).trans (List.map_id _)
  simp only [EnvName.lower, Settable.name, String.toList_ofList, List.map_append, back]

theorem EnvName.envKey_eq (name : EnvName) :
    ∃ body : List Char, name.lower = envPrefix.map Char.toLower ++ body ∧ (∀ c ∈ body, keyChar c = true) ∧
      envKey name.text = String.ofList (collapse '_' '.' body) := by
  obtain ⟨rest, whole⟩ := name.begins
  refine ⟨rest.map Char.toLower, ?_, ?_, ?_⟩
  · rw [EnvName.lower, ← whole, List.map_append]
  · intro c member
    obtain ⟨letter, inside, rfl⟩ := List.mem_map.mp member
    exact keyChar_toLower (name.word letter (whole ▸ List.mem_append_right _ inside))
  · simp [envKey, trimPrefix, ← whole]

/-- A shell variable sets a key exactly where the key is one that can be set and the
variable is the one for it, up to the case of its letters. -/
theorem envKey_eq_iff (name : EnvName) (key : String) :
    envKey name.text = key ↔ ∃ settable : Settable key, name.lower = settable.name.lower := by
  obtain ⟨body, lower, letters, read⟩ := name.envKey_eq
  have free : '.' ∉ body := fun member => absurd (letters '.' member) (by decide)
  constructor
  · rintro rfl
    rw [read]
    obtain ⟨clear, written⟩ := (collapse_eq_iff free).mp (rfl : collapse '_' '.' body = _)
    have settable : Settable (String.ofList (collapse '_' '.' body)) := by
      refine ⟨by simpa using clear, fun c member plain => letters c ?_⟩
      rw [String.toList_ofList] at member
      exact written ▸ mem_expand.mpr (.inl ⟨member, plain⟩)
    refine ⟨settable, ?_⟩
    rw [settable.lower_name, String.toList_ofList, written, lower]
  · rintro ⟨settable, same⟩
    rw [lower, settable.lower_name] at same
    have whole := List.append_cancel_left same
    rw [read, (collapse_eq_iff free).mpr ⟨settable.clear, whole.symm⟩, String.ofList_toList]

example : Settable "routing.model_groups.smart.strategy" ∧ ¬ Settable "routing.model_groups.gpt-4o.strategy" := by
  decide

end LlmGateway
