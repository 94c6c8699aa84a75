/-!
# Ordered sets

Sets that list their members in the order of first insertion. Inserting a member again changes
nothing.
-/

namespace StubNames.Ordered

structure Set (α : Type) where
  toList : List α
  nodup : toList.Nodup
  deriving DecidableEq

namespace Set

variable {α : Type}

def empty : Set α :=
  ⟨[], List.nodup_nil⟩

instance : Inhabited (Set α) := ⟨empty⟩

instance : Membership α (Set α) where
  mem s a := a ∈ s.toList

@[simp] theorem mem_toList {s : Set α} {a : α} : a ∈ s.toList ↔ a ∈ s := Iff.rfl

@[simp] theorem notMem_empty {a : α} : a ∉ (empty : Set α) := List.not_mem_nil

variable [DecidableEq α]

instance {s : Set α} {a : α} : Decidable (a ∈ s) :=
  inferInstanceAs (Decidable (a ∈ s.toList))

def insert (s : Set α) (a : α) : Set α :=
  if h : a ∈ s.toList then s
  else ⟨s.toList ++ [a], by
    rw [List.nodup_append]
    exact ⟨s.nodup, by simp, fun x hx y hy => by
      rw [List.mem_singleton] at hy
      exact fun e => h (hy ▸ e ▸ hx)⟩⟩

theorem toList_insert_of_mem {s : Set α} {a : α} (h : a ∈ s) : (s.insert a).toList = s.toList := by
  rw [insert, dif_pos (mem_toList.2 h)]

theorem toList_insert_of_notMem {s : Set α} {a : α} (h : a ∉ s) :
    (s.insert a).toList = s.toList ++ [a] := by
  rw [insert, dif_neg (mt mem_toList.1 h)]

theorem mem_insert {s : Set α} {a b : α} : b ∈ s.insert a ↔ b ∈ s ∨ b = a := by
  by_cases h : a ∈ s
  · rw [← mem_toList, toList_insert_of_mem h, mem_toList]
    exact ⟨Or.inl, fun hb => hb.elim id (· ▸ h)⟩
  · rw [← mem_toList, toList_insert_of_notMem h]
    simp

def insertAll (s : Set α) (as : List α) : Set α :=
  as.foldl insert s

theorem mem_insertAll {s : Set α} {as : List α} {b : α} :
    b ∈ s.insertAll as ↔ b ∈ s ∨ b ∈ as := by
  induction as generalizing s with
  | nil => simp [insertAll]
  | cons a as ih =>
    have : s.insertAll (a :: as) = (s.insert a).insertAll as := rfl
    rw [this, ih, mem_insert, List.mem_cons, or_assoc]

def ofList (as : List α) : Set α :=
  empty.insertAll as

theorem mem_ofList {as : List α} {b : α} : b ∈ ofList as ↔ b ∈ as := by
  simp [ofList, mem_insertAll]

def sameMembers (s t : Set α) : Bool :=
  s.toList.all (fun a => a ∈ t) && t.toList.all (fun a => a ∈ s)

theorem sameMembers_iff {s t : Set α} : s.sameMembers t = true ↔ ∀ a, a ∈ s ↔ a ∈ t := by
  simp only [sameMembers, Bool.and_eq_true, List.all_eq_true, decide_eq_true_eq, mem_toList]
  exact ⟨fun h a => ⟨h.1 a, h.2 a⟩, fun h => ⟨fun a => (h a).1, fun a => (h a).2⟩⟩

end Set

end StubNames.Ordered
