import Mathlib.Data.List.Induction
import StubNames.Config.Basic
/-!
# The normal form of a configuration

Whatever a configuration lists twice counts once, where it is listed first, and the built-in names
come before all others if they are kept.  A convention that is written down as a configuration of
its own, without the built-in names, describes itself again.
-/

namespace StubNames

/-! ## First occurrences -/

theorem eraseDups_eq_self {α : Type} [DecidableEq α] {as : List α} (h : as.Nodup) :
    as.eraseDups = as := by
  induction as with
  | nil => rfl
  | cons a as ih =>
      obtain ⟨ha, has⟩ := List.nodup_cons.1 h
      have hkept : as.filter (fun b => !b == a) = as := by
        rw [List.filter_eq_self]
        intro b hb
        have hne : b ≠ a := fun hba => ha (hba ▸ hb)
        simpa using hne
      rw [List.eraseDups_cons, hkept, ih has]

theorem eraseDups_append_singleton {α : Type} [DecidableEq α] (as : List α) (a : α) :
    (as ++ [a]).eraseDups = if a ∈ as then as.eraseDups else as.eraseDups ++ [a] := by
  rw [List.eraseDups_append]
  by_cases ha : a ∈ as
  · simp [List.removeAll, ha]
  · simp [List.removeAll, ha, List.eraseDups_cons]

namespace Ordered.Set

variable {α : Type} [DecidableEq α]

omit [DecidableEq α] in
theorem toList_inj {s t : Set α} : s.toList = t.toList ↔ s = t := by
  cases s
  cases t
  simp

theorem insertAll_append (s : Set α) (as bs : List α) :
    (s.insertAll as).insertAll bs = s.insertAll (as ++ bs) := by
  rw [insertAll, insertAll, insertAll, List.foldl_append]

theorem toList_ofList (as : List α) : (ofList as).toList = as.eraseDups := by
  induction as using List.reverseRecOn with
  | nil => rfl
  | append_singleton as a ih =>
      have hlast : ofList (as ++ [a]) = (ofList as).insert a := by
        rw [ofList, ← insertAll_append]
        rfl
      rw [hlast, eraseDups_append_singleton]
      by_cases ha : a ∈ as
      · rw [if_pos ha, toList_insert_of_mem (mem_ofList.2 ha), ih]
      · rw [if_neg ha, toList_insert_of_notMem (mt mem_ofList.1 ha), ih]

/-- Members that are inserted in the order of a set make the set again. -/
theorem ofList_toList (s : Set α) : ofList s.toList = s := by
  rw [← toList_inj, toList_ofList, eraseDups_eq_self s.nodup]

end Ordered.Set

namespace Config

/-- The configuration that lists all that a convention reserves, in its order, and leaves the
built-in names out. -/
def ofConvention (d : Convention) : Config where
  reserved :=
    { extend := false, fields := d.reservedFields.toList, types := d.reservedTypes.toList }
  suffixes := { server := d.serverSuffix, client := d.clientSuffix, escape := d.escapeSuffix }

def listedFields (c : Config) : List String :=
  (if c.reserved.extend then Convention.goReservedFields else []) ++ c.reserved.fields

variable {c : Config}

theorem reservedFields_convention : c.convention.reservedFields = .ofList c.listedFields := by
  rw [convention, listedFields, Ordered.Set.ofList, ← Ordered.Set.insertAll_append]
  cases c.reserved.extend with
  | false => rfl
  | true => rfl

theorem reservedTypes_convention : c.convention.reservedTypes = .ofList c.reserved.types := by
  rw [convention, Ordered.Set.ofList]
  cases c.reserved.extend with
  | false => rfl
  | true => rfl

theorem convention_ofConvention (d : Convention) : (ofConvention d).convention = d := by
  have hfields : (ofConvention d).convention.reservedFields = d.reservedFields := by
    rw [reservedFields_convention]
    exact Ordered.Set.ofList_toList d.reservedFields
  have htypes : (ofConvention d).convention.reservedTypes = d.reservedTypes := by
    rw [reservedTypes_convention]
    exact Ordered.Set.ofList_toList d.reservedTypes
  calc (ofConvention d).convention
      = { d with
          reservedFields := (ofConvention d).convention.reservedFields
          reservedTypes := (ofConvention d).convention.reservedTypes } := rfl
    _ = d := by rw [hfields, htypes]

/-- The convention of a configuration, valid or not, reserves what is listed, each name where it is
listed first, and it has the suffixes that are given.  Written down as a configuration of its own it
is the same convention again, in the same order. -/
theorem convention_exact (c : Config) :
    let d := c.convention
    d.reservedFields.toList = c.listedFields.eraseDups ∧
    d.reservedTypes.toList = c.reserved.types.eraseDups ∧
    (∀ name, d.isReservedField name = true ↔ name ∈ c.listedFields) ∧
    (∀ name, d.isReservedType name = true ↔ name ∈ c.reserved.types) ∧
    (d.serverSuffix = c.suffixes.server ∧ d.clientSuffix = c.suffixes.client ∧
      d.escapeSuffix = c.suffixes.escape) ∧
    (ofConvention d).convention = d := by
  intro d
  have hfields : d.reservedFields = .ofList c.listedFields := reservedFields_convention
  have htypes : d.reservedTypes = .ofList c.reserved.types := reservedTypes_convention
  refine ⟨?_, ?_, fun name => ?_, fun name => ?_, ⟨rfl, rfl, rfl⟩, convention_ofConvention d⟩
  · rw [hfields, Ordered.Set.toList_ofList]
  · rw [htypes, Ordered.Set.toList_ofList]
  · rw [Convention.isReservedField, decide_eq_true_iff, hfields, Ordered.Set.mem_ofList]
  · rw [Convention.isReservedType, decide_eq_true_iff, htypes, Ordered.Set.mem_ofList]

/-- One name is listed twice, and another is built in. -/
example :
    let c : Config := { reserved := { fields := ["Clone", "Reset", "Clone"] } }
    c.convention.reservedFields.toList = Convention.goReservedFields ++ ["Clone"] := by
  decide

end Config

end StubNames
