/-!
# Ordered maps

Maps that list their entries in the order in which their keys were first inserted. Inserting a
key again replaces its value in place.
-/

namespace StubNames.Ordered

structure Map (κ ν : Type) where
  entries : List (κ × ν)
  nodup : (entries.map Prod.fst).Nodup

namespace Map

variable {κ ν : Type}

def empty : Map κ ν :=
  ⟨[], List.nodup_nil⟩

instance : Inhabited (Map κ ν) := ⟨empty⟩

def keys (m : Map κ ν) : List κ :=
  m.entries.map Prod.fst

def values (m : Map κ ν) : List ν :=
  m.entries.map Prod.snd

def size (m : Map κ ν) : Nat :=
  m.entries.length

def isEmpty (m : Map κ ν) : Bool :=
  m.entries.isEmpty

variable [DecidableEq κ]

def get? (m : Map κ ν) (k : κ) : Option ν :=
  (m.entries.find? fun e => e.1 = k).map Prod.snd

def contains (m : Map κ ν) (k : κ) : Bool :=
  k ∈ m.keys

def insert (m : Map κ ν) (k : κ) (v : ν) : Map κ ν :=
  if h : k ∈ m.keys then
    ⟨m.entries.map fun e => if e.1 = k then (k, v) else e, by
      have : (m.entries.map fun e => if e.1 = k then (k, v) else e).map Prod.fst =
          m.entries.map Prod.fst := by
        rw [List.map_map]
        refine List.map_congr_left fun e _ => ?_
        by_cases he : e.1 = k <;> simp [he]
      exact this ▸ m.nodup⟩
  else
    ⟨m.entries ++ [(k, v)], by
      rw [List.map_append, List.nodup_append]
      exact ⟨m.nodup, by simp, fun x hx y hy => by
        rw [List.map_singleton, List.mem_singleton] at hy
        subst hy
        exact fun e => h (e ▸ hx)⟩⟩

theorem entries_insert_of_notMem {m : Map κ ν} {k : κ} {v : ν} (h : k ∉ m.keys) :
    (m.insert k v).entries = m.entries ++ [(k, v)] := by
  rw [insert, dif_neg h]

theorem get?_eq_some_iff {m : Map κ ν} {k : κ} {v : ν} :
    m.get? k = some v ↔ (k, v) ∈ m.entries := by
  obtain ⟨entries, hkeys⟩ := m
  rw [get?]
  induction entries with
  | nil => simp
  | cons e entries ih =>
    rw [List.map_cons, List.nodup_cons] at hkeys
    by_cases hk : e.1 = k
    · -- the key does not come again behind its first entry
      have hrest : (k, v) ∉ entries := fun hmem =>
        hkeys.1 (hk ▸ List.mem_map_of_mem (f := Prod.fst) hmem)
      rw [List.find?_cons_of_pos (by simpa using hk)]
      simp [hrest, Prod.ext_iff, hk, eq_comm]
    · rw [List.find?_cons_of_neg (by simpa using hk), ih hkeys.2]
      simp [Prod.ext_iff, Ne.symm hk]

end Map

end StubNames.Ordered
