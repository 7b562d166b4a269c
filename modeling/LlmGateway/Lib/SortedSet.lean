import Mathlib.Data.List.Sort
import Mathlib.Data.List.Perm.Basic
import Mathlib.Order.Lattice
import Mathlib.Data.Int.Order.Basic

/-- One member of a sorted set with its score. -/
structure ScoredMember (μ : Type*) where
  member : μ
  score : Int
deriving DecidableEq, Repr

namespace ScoredMember

variable {μ : Type*} [LinearOrder μ]

/-- The order of a sorted set: by score, then by member. -/
def Before (a b : ScoredMember μ) : Prop :=
  a.score < b.score ∨ a.score = b.score ∧ a.member ≤ b.member

instance : DecidableRel (Before (μ := μ)) := fun a b => by
  unfold Before
  infer_instance

instance : Std.Total (Before (μ := μ)) where
  total a b := by
    unfold Before
    rcases lt_trichotomy a.score b.score with less | same | more
    · exact Or.inl (Or.inl less)
    · rcases le_total a.member b.member with first | second
      · exact Or.inl (Or.inr ⟨same, first⟩)
      · exact Or.inr (Or.inr ⟨same.symm, second⟩)
    · exact Or.inr (Or.inl more)

instance : IsTrans (ScoredMember μ) Before where
  trans a b c := by
    rintro (ab | ⟨ab, below⟩) (bc | ⟨bc, above⟩)
    · exact Or.inl (ab.trans bc)
    · exact Or.inl (bc ▸ ab)
    · exact Or.inl (ab ▸ bc)
    · exact Or.inr ⟨ab.trans bc, below.trans above⟩

end ScoredMember

/-- The entries of a sorted set stand in order and no member occurs twice. -/
structure SortedSet (μ : Type*) [LinearOrder μ] where
  entries : List (ScoredMember μ)
  sorted : entries.Pairwise ScoredMember.Before
  unique : (entries.map ScoredMember.member).Nodup

namespace SortedSet

variable {μ : Type*} [LinearOrder μ]

/-- The set without members. -/
def empty : SortedSet μ where
  entries := []
  sorted := .nil
  unique := .nil

/-- Keeps the entries whose score passes the test. -/
def filterScore (S : SortedSet μ) (keep : Int → Bool) : SortedSet μ where
  entries := S.entries.filter fun e => keep e.score
  sorted := S.sorted.filter _
  unique := S.unique.sublist (List.filter_sublist.map _)

/-- Removes every entry with a score up to the bound, the bound included. -/
def removeUpTo (S : SortedSet μ) (bound : Int) : SortedSet μ :=
  S.filterScore fun score => bound < score

/-- Removes the member, whatever its score. -/
def erase (S : SortedSet μ) (m : μ) : SortedSet μ where
  entries := S.entries.filter fun e => e.member ≠ m
  sorted := S.sorted.filter _
  unique := S.unique.sublist (List.filter_sublist.map _)

/-- Adds the member under the score. A member that is already there moves to
the new score, so the set never holds it twice. -/
def insert (S : SortedSet μ) (m : μ) (score : Int) : SortedSet μ where
  entries := (S.erase m).entries.orderedInsert ScoredMember.Before ⟨m, score⟩
  sorted := (S.erase m).sorted.orderedInsert _ _
  unique := by
    have moved := (List.perm_orderedInsert ScoredMember.Before ⟨m, score⟩ (S.erase m).entries).map
      ScoredMember.member
    refine moved.nodup_iff.mpr (List.nodup_cons.mpr ⟨?_, (S.erase m).unique⟩)
    simp [erase]

def card (S : SortedSet μ) : Nat := S.entries.length

/-- The score of the first entry, which is the least one. -/
def leastScore (S : SortedSet μ) : Option Int := S.entries.head?.map ScoredMember.score

instance : Membership (ScoredMember μ) (SortedSet μ) := ⟨fun S e => e ∈ S.entries⟩

theorem mem_def {S : SortedSet μ} {e : ScoredMember μ} : e ∈ S ↔ e ∈ S.entries := Iff.rfl

@[simp] theorem entries_empty : (empty : SortedSet μ).entries = [] := rfl

@[simp] theorem entries_removeUpTo (S : SortedSet μ) (bound : Int) :
    (S.removeUpTo bound).entries = S.entries.filter fun e => bound < e.score := rfl

theorem mem_removeUpTo {S : SortedSet μ} {bound : Int} {e : ScoredMember μ} :
    e ∈ S.removeUpTo bound ↔ e ∈ S ∧ bound < e.score := by
  simp [mem_def]

theorem insert_perm (S : SortedSet μ) (m : μ) (score : Int) :
    (S.insert m score).entries.Perm (⟨m, score⟩ :: (S.erase m).entries) :=
  List.perm_orderedInsert _ _ _

theorem mem_insert {S : SortedSet μ} {m : μ} {score : Int} {e : ScoredMember μ} :
    e ∈ S.insert m score ↔ e = ⟨m, score⟩ ∨ e ∈ S ∧ e.member ≠ m := by
  rw [mem_def, (S.insert_perm m score).mem_iff]
  simp [erase, mem_def]

theorem erase_of_fresh {S : SortedSet μ} {m : μ} (fresh : ∀ e ∈ S, e.member ≠ m) :
    (S.erase m).entries = S.entries :=
  List.filter_eq_self.mpr fun e member => by simpa using fresh e member

/-- A member that is not in the set adds exactly one entry. -/
theorem insert_perm_of_fresh {S : SortedSet μ} {m : μ} (fresh : ∀ e ∈ S, e.member ≠ m) (score : Int) :
    (S.insert m score).entries.Perm (⟨m, score⟩ :: S.entries) := by
  have added := S.insert_perm m score
  rwa [erase_of_fresh fresh] at added

theorem pairwise_scores (S : SortedSet μ) : (S.entries.map ScoredMember.score).Pairwise (· ≤ ·) := by
  refine List.pairwise_map.mpr (S.sorted.imp ?_)
  rintro a b (less | ⟨same, _⟩)
  · exact less.le
  · exact same.le

/-- The least score depends on the scores alone. -/
theorem leastScore_congr {ν : Type*} [LinearOrder ν] {S : SortedSet μ} {T : SortedSet ν}
    (scores : (S.entries.map ScoredMember.score).Perm (T.entries.map ScoredMember.score)) :
    S.leastScore = T.leastScore := by
  have same := scores.eq_of_pairwise (fun _ _ _ _ => le_antisymm) S.pairwise_scores T.pairwise_scores
  unfold leastScore
  rw [← List.head?_map, ← List.head?_map, same]

/-- A sorted set is determined by its entries. -/
theorem ext_mem {S T : SortedSet μ} (same : ∀ e, e ∈ S ↔ e ∈ T) : S = T := by
  have perm : S.entries.Perm T.entries :=
    (List.perm_ext_iff_of_nodup (S.unique.of_map _) (T.unique.of_map _)).mpr same
  have equal : S.entries = T.entries := by
    refine perm.eq_of_pairwise (fun a b _ _ ab ba => ?_) S.sorted T.sorted
    obtain ⟨m, i⟩ := a
    obtain ⟨m', j⟩ := b
    rcases ab with less | ⟨rfl, below⟩ <;> rcases ba with more | ⟨_, above⟩ <;> dsimp only at *
    · omega
    · omega
    · omega
    · rw [le_antisymm below above]
  cases S
  cases T
  cases equal
  rfl

theorem insert_insert (S : SortedSet μ) (m : μ) (score : Int) :
    (S.insert m score).insert m score = S.insert m score := by
  refine ext_mem fun e => ?_
  rw [mem_insert, mem_insert]
  tauto

theorem removeUpTo_of_above {S : SortedSet μ} {bound : Int} (above : ∀ e ∈ S, bound < e.score) :
    S.removeUpTo bound = S := by
  refine ext_mem fun e => ?_
  rw [mem_removeUpTo]
  exact and_iff_left_of_imp (above e)

theorem card_insert_of_fresh {S : SortedSet μ} {m : μ} (fresh : ∀ e ∈ S, e.member ≠ m) (score : Int) :
    (S.insert m score).card = S.card + 1 :=
  (insert_perm_of_fresh fresh score).length_eq

/-- A member that is in the set only moves. -/
theorem card_insert_of_mem {S : SortedSet μ} {m : μ} (present : ∃ e ∈ S, e.member = m) (score : Int) :
    (S.insert m score).card = S.card := by
  have members : ((S.insert m score).entries.map ScoredMember.member).Perm (S.entries.map ScoredMember.member) := by
    refine (List.perm_ext_iff_of_nodup (S.insert m score).unique S.unique).mpr fun x => ?_
    simp only [List.mem_map, ← mem_def, mem_insert]
    constructor
    · rintro ⟨e, rfl | ⟨old, _⟩, rfl⟩
      · exact present
      · exact ⟨e, old, rfl⟩
    · rintro ⟨e, old, rfl⟩
      by_cases same : e.member = m
      · exact ⟨⟨m, score⟩, Or.inl rfl, same.symm⟩
      · exact ⟨e, Or.inr ⟨old, same⟩, rfl⟩
  simpa [card] using members.length_eq

/-- Pairwise different members that are all in the set are at most as many
as the set has entries. -/
theorem length_le_card {S : SortedSet μ} {es : List (ScoredMember μ)}
    (distinct : (es.map ScoredMember.member).Nodup) (present : ∀ e ∈ es, e ∈ S) :
    es.length ≤ S.card :=
  (List.subperm_of_subset (List.Nodup.of_map _ distinct) present).length_le

/-- The least score, or `now` in an empty set, where no score is above `now`. -/
theorem leastScore_getD {S : SortedSet μ} {now : Int} (past : ∀ e ∈ S, e.score ≤ now) :
    S.leastScore.getD now = (S.entries.map ScoredMember.score).foldr min now := by
  have ordered := S.pairwise_scores
  have bounded : ∀ score ∈ S.entries.map ScoredMember.score, score ≤ now := List.forall_mem_map.mpr past
  rw [leastScore, ← List.head?_map]
  generalize S.entries.map ScoredMember.score = scores at ordered bounded
  cases scores with
  | nil => rfl
  | cons first scores =>
    obtain ⟨least, -⟩ := List.pairwise_cons.mp ordered
    obtain ⟨here, -⟩ := List.forall_mem_cons.mp bounded
    have above : first ≤ scores.foldr min now := by
      clear ordered bounded
      induction scores with
      | nil => exact here
      | cons score scores ih =>
        obtain ⟨next, least⟩ := List.forall_mem_cons.mp least
        exact le_min next (ih least)
    exact (min_eq_left above).symm

end SortedSet
