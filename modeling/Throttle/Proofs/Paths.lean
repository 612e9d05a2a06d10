import Throttle.Proofs.Decimal
import Throttle.Proofs.Library

/-!
# The standard library

The standard libraries are lawful: what is set at a path changes only the entry where the path
starts, a mapping keeps one value for each key, and the variables of the limits lead to their
fields.
-/

namespace Throttle.Config

variable {t u m : Table} {key name field text : String} {new here v : Value} {rest : Path}

/-! Mappings. -/

namespace Table

theorem put_of_not_mem (h : key ∉ t.map Prod.fst) (v : Value) : t.put key v = t ++ [(key, v)] := by
  induction t with
  | nil => rfl
  | cons entry t ih =>
    obtain ⟨hne, hrest⟩ := not_or.1 (mt List.mem_cons.2 h)
    obtain ⟨k, w⟩ := entry
    rw [put, if_neg (Ne.symm hne), ih hrest]
    rfl

theorem mem_put {entry : String × Value} (h : entry ∈ t.put key v) : entry ∈ t ∨ entry.2 = v := by
  induction t with
  | nil => exact .inr (by rw [List.mem_singleton.1 h])
  | cons first t ih =>
    obtain ⟨k, w⟩ := first
    rw [put] at h
    split at h
    · rcases List.mem_cons.1 h with rfl | hrest
      · exact .inr rfl
      · exact .inl (List.mem_cons_of_mem _ hrest)
    · rcases List.mem_cons.1 h with rfl | hrest
      · exact .inl (List.mem_cons_self ..)
      · exact (ih hrest).imp_left (List.mem_cons_of_mem _)

end Table

namespace Value

open Yaml (Node)

theorem distinct_put (h : (Value.table t).Distinct) (key : String) (hv : v.Distinct) :
    (Value.table (t.put key v)).Distinct :=
  .table (Table.nodup_keys_put h.nodup_keys key v) fun entry hmem => by
    rcases Table.mem_put hmem with hold | hnew
    · exact h.of_mem hold
    · rw [hnew]
      exact hv

theorem distinct_ofPlain {p : Plain} (h : ofPlain p = .ok v) : v.Distinct := by
  refine .other ?_
  rintro ⟨u, rfl⟩
  cases p with
  | real s =>
    rw [ofPlain] at h
    split at h <;> cases h
  | nil | bool _ | int _ | text _ => cases h

mutual

theorem distinct_ofNode : ∀ {n : Node} {v : Value}, ofNode n = .ok v → v.Distinct
  | .scalar tag style s, v, h => by
    rw [ofNode] at h
    exact distinct_ofPlain h
  | .sequence tag items, v, h => by
    rw [ofNode] at h
    cases hitems : ofItems items with
    | error e =>
      rw [hitems] at h
      cases h
    | ok vs =>
      rw [hitems] at h
      cases h
      exact .other fun ⟨_, h⟩ => by cases h
  | .mapping tag entries, v, h => by
    rw [ofNode] at h
    cases hentries : ofEntries [] entries with
    | error e =>
      rw [hentries] at h
      cases h
    | ok t =>
      rw [hentries] at h
      cases h
      exact distinct_ofEntries hentries distinct_nil
  | .reference anchor known, v, h => by
    rw [ofNode] at h
    exact distinct_ofKnown h

theorem distinct_ofKnown : ∀ {known : Option Node} {v : Value}, ofKnown known = .ok v → v.Distinct
  | none, v, h => by
    rw [ofKnown] at h
    cases h
    exact .other fun ⟨_, h⟩ => by cases h
  | some n, v, h => by
    rw [ofKnown] at h
    exact distinct_ofNode h

theorem distinct_ofEntries : ∀ {entries : List (Node × Node)} {t u : Table},
    ofEntries t entries = .ok u → (Value.table t).Distinct → (Value.table u).Distinct
  | [], t, u, h, ht => by
    rw [ofEntries] at h
    cases h
    exact ht
  | (key, value) :: rest, t, u, h, ht => by
    rw [ofEntries, bind_eq_ok_iff] at h
    obtain ⟨name, -, h⟩ := h
    obtain ⟨v, hv, h⟩ := bind_eq_ok_iff.1 h
    exact distinct_ofEntries h (distinct_put ht name (distinct_ofNode hv))

end

theorem distinct_parse (h : parse text = .ok v) : v.Distinct := by
  rw [parse, bind_eq_ok_iff] at h
  obtain ⟨document?, -, h⟩ := h
  split at h
  · cases h
    exact distinct_nil
  · split at h
    · exact distinct_ofNode h
    · cases h

end Value

theorem distinct_textEntries (h : textEntries text = .ok t) : (Value.table t).Distinct := by
  rw [textEntries, bind_eq_ok_iff] at h
  obtain ⟨v, hv, h⟩ := h
  split at h
  · cases h
    exact Value.distinct_parse hv
  · cases h

/-! Values at paths. -/

theorem Path.parse_head (key : String) : ∃ name rest, parse key = .child name :: rest := by
  simp only [parse]
  split
  · exact ⟨_, _, rfl⟩
  · split <;> exact ⟨_, _, rfl⟩

namespace Value

/-- Only the entry where the path starts changes. -/
theorem setPath_starts (h : setPath new (.child key :: rest) here = .ok v) :
    ∃ w, v = .table (here.asTable.put key w) := by
  cases rest with
  | nil =>
    rw [setPath_child] at h
    have hset : ∃ w, setKey here.asTable key new = here.asTable.put key w := by
      cases new with
      | table entries => exact ⟨_, by rw [setKey]⟩
      | nil | bool _ | int _ | float _ | text _ | list _ => exact ⟨_, by rw [setKey]; simp⟩
    obtain ⟨w, hw⟩ := hset
    exact ⟨w, by rw [← hw, Except.ok.inj h]⟩
  | cons step rest =>
    rw [setPath, bind_eq_ok_iff] at h
    · obtain ⟨w, -, hv⟩ := h
      exact ⟨w, (Except.ok.inj hv).symm⟩
    · simp

theorem setKey_of_no_table (t : Table) (key : String) (h : ¬ new.IsTable) :
    setKey t key new = t.put key new := by
  cases new with
  | table entries => exact absurd ⟨entries, rfl⟩ h
  | nil | bool _ | int _ | float _ | text _ | list _ => rw [setKey]; simp

theorem setKeys_append (hkeys : (m.map Prod.fst).Nodup)
    (hfree : ∀ entry ∈ m, entry.1 ∉ t.map Prod.fst)
    (hinner : ∀ entry ∈ m, ∀ u, entry.2 = .table u → setKeys (.table []) u = .table u) :
    setKeys (.table t) m = .table (t ++ m) := by
  induction m generalizing t with
  | nil => rw [setKeys, List.append_nil]
  | cons entry m ih =>
    obtain ⟨key, new⟩ := entry
    obtain ⟨hnew, hkeys⟩ := List.nodup_cons.1 hkeys
    obtain ⟨hkey, hfree⟩ := List.forall_mem_cons.1 hfree
    obtain ⟨hentry, hinner⟩ := List.forall_mem_cons.1 hinner
    have hset : setKey t key new = t ++ [(key, new)] := by
      by_cases htable : new.IsTable
      · obtain ⟨u, rfl⟩ := htable
        rw [setKey, Table.get?_eq_none hkey, Option.getD_none, hentry u rfl,
          Table.put_of_not_mem hkey]
      · rw [setKey_of_no_table t key htable, Table.put_of_not_mem hkey]
    have hrest : ∀ entry ∈ m, entry.1 ∉ (t ++ [(key, new)]).map Prod.fst := by
      intro entry hmem h
      rw [List.map_append, List.mem_append] at h
      rcases h with hold | hlast
      · exact hfree entry hmem hold
      · rw [List.map_singleton, List.mem_singleton] at hlast
        exact hnew (List.mem_map.2 ⟨entry, hmem, hlast⟩)
    rw [setKeys, asTable, hset, ih hkeys hrest hinner, List.append_assoc]
    rfl

theorem Distinct.setKeys_nil (h : v.Distinct) :
    ∀ u, v = .table u → setKeys (.table []) u = .table u := by
  induction h with
  | table hkeys _ ih =>
    rintro u ⟨⟩
    exact setKeys_append hkeys (fun _ _ h => by cases h) ih
  | other hno =>
    rintro u rfl
    exact absurd ⟨u, rfl⟩ hno

end Value

/-! Variables. -/

theorem lower_ne {n : Int} {word : String} (h : int64Of? 10 text.toList = some n)
    (hword : ∃ c ∈ word.toList.tail, ¬ c.isDigit) : lower text ≠ word := by
  rintro rfl
  rw [lower, String.toList_ofList] at hword
  exact map_toLower_ne h hword rfl

theorem ofVariable_of_spells (h : Spells text v) : Value.ofVariable text = v := by
  unfold Value.ofVariable
  cases h with
  | number hn =>
    split
    · rename_i hword
      exact absurd hword (lower_ne hn ⟨'r', by decide, by decide⟩)
    · rename_i hword
      exact absurd hword (lower_ne hn ⟨'a', by decide, by decide⟩)
    · rw [hn]
  | @flag b hb =>
    rw [hb]
    cases b <;> rfl

theorem variableKey?_variableName (h : field ∈ limitNames) :
    ∃ key, variableKey? (variableName field) = some key ∧ Path.parse key = limitPath field := by
  have hkeys : ∀ field ∈ limitNames, (variableKey? (variableName field)).map Path.parse =
      some (limitPath field) := by decide +kernel
  exact Option.map_eq_some_iff.1 (hkeys field h)

theorem parse_section : ∀ name ∈ ["limits", "logging"], Path.parse name = [.child name] := by
  decide +kernel

theorem Library.standard_lawful : standard.Lawful where
  distinct := distinct_textEntries
  path_starts := Path.parse_head
  path_section := parse_section
  path_variable field h := by
    simp only [standard]
    exact variableKey?_variableName h
  ofVariable := ofVariable_of_spells
  setPath_other h := by
    obtain ⟨w, rfl⟩ := Value.setPath_starts h
    exact ⟨_, rfl, fun other hother => Table.get?_put_of_ne _ hother w⟩
  setPath_table {name t m} hdistinct hnone := by
    refine ⟨t.put name (.table m), ?_, Table.get?_put_self t name _⟩
    change Value.setPath (.table m) [.child name] (.table t) = _
    rw [Value.setPath_child, Value.asTable, Value.setKey, hnone, Option.getD_none,
      hdistinct.setKeys_nil m rfl]
  setPath_field {name field t new} hmaps hnew := by
    refine ⟨_, (t.within name).put field new, ?_, Table.get?_put_self t name _,
      Table.get?_put_self _ field new, fun other hother => Table.get?_put_of_ne _ hother new⟩
    change Value.setPath new [.child name, .child field] (.table t) = _
    rw [← Value.setKey_of_no_table _ field hnew]
    rfl
  toInt?_int _ := rfl
  toBool?_bool _ := rfl

end Throttle.Config
