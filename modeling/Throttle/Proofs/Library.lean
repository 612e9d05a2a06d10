import Throttle.Config.Layers

/-!
# Lawful libraries

What the libraries promise that settings are loaded with, and what a layer then sets at an entry
that only its own key leads to: the value at that key, whatever the order of the layer.
-/

namespace Throttle.Config

theorem bind_eq_ok_iff {α β : Type} {x : Except Error α} {f : α → Except Error β} {b : β} :
    x >>= f = .ok b ↔ ∃ a, x = .ok a ∧ f a = .ok b := by
  cases x with
  | error e => simp [bind, Except.bind]
  | ok a => simp [bind, Except.bind]

namespace Value

def IsTable (v : Value) : Prop := ∃ u : Table, v = .table u

instance : DecidablePred IsTable
  | .table u => .isTrue ⟨u, rfl⟩
  | .nil | .bool _ | .int _ | .float _ | .text _ | .list _ => .isFalse fun ⟨_, h⟩ => by cases h

/-- No table has a key twice, and neither have the tables in it. -/
inductive Distinct : Value → Prop
  | table {t : Table} : (t.map Prod.fst).Nodup → (∀ entry ∈ t, Distinct entry.2) →
      Distinct (.table t)
  | other {v : Value} : ¬ v.IsTable → Distinct v

theorem distinct_nil : (Value.table []).Distinct := .table List.nodup_nil (List.forall_mem_nil _)

theorem Distinct.nodup_keys {t : Table} (h : (Value.table t).Distinct) :
    (t.map Prod.fst).Nodup := by
  cases h with
  | table hkeys _ => exact hkeys
  | other hno => exact absurd ⟨t, rfl⟩ hno

theorem Distinct.of_mem {t : Table} (h : (Value.table t).Distinct) {entry : String × Value}
    (hmem : entry ∈ t) : entry.2.Distinct := by
  cases h with
  | table _ hentries => exact hentries entry hmem
  | other hno => exact absurd ⟨t, rfl⟩ hno

end Value

namespace Table

variable {t u : Table} {key name : String} {v : Value}

def Maps (t : Table) (name : String) : Prop := ∀ v, t.get? name = some v → v.IsTable

instance (t : Table) (name : String) : Decidable (t.Maps name) :=
  inferInstanceAs (Decidable (∀ v ∈ t.get? name, v.IsTable))

def within (t : Table) (name : String) : Table := ((t.get? name).getD .nil).asTable

theorem Maps.get?_eq (h : t.Maps name) :
    t.get? name = none ∧ t.within name = [] ∨ t.get? name = some (.table (t.within name)) := by
  cases hv : t.get? name with
  | none => exact .inl ⟨rfl, by rw [within, hv]; rfl⟩
  | some v =>
    obtain ⟨u, rfl⟩ := h v hv
    exact .inr (by rw [within, hv]; rfl)

theorem within_of_get? (h : t.get? name = some (.table u)) : t.within name = u := by
  rw [within, h]
  rfl

theorem get?_cons_self (key : String) (v : Value) (t : Table) : get? ((key, v) :: t) key = some v :=
  List.lookup_cons_self

theorem get?_cons_of_ne (h : name ≠ key) (v : Value) (t : Table) :
    get? ((key, v) :: t) name = t.get? name := by
  have hkey : (name == key) = false := by simp [h]
  rw [get?, List.lookup_cons, hkey]
  rfl

theorem get?_eq_none (h : key ∉ t.map Prod.fst) : t.get? key = none := by
  induction t with
  | nil => rfl
  | cons entry t ih =>
    obtain ⟨hne, hrest⟩ := not_or.1 (mt List.mem_cons.2 h)
    exact (get?_cons_of_ne hne entry.2 t).trans (ih hrest)

theorem get?_eq_some_iff (h : (t.map Prod.fst).Nodup) : t.get? key = some v ↔ (key, v) ∈ t := by
  induction t with
  | nil => exact iff_of_false (by simp [get?]) (List.not_mem_nil)
  | cons entry t ih =>
    obtain ⟨hentry, hrest⟩ := List.nodup_cons.1 h
    by_cases hkey : key = entry.1
    · subst hkey
      have hnone : (entry.1, v) ∉ t := fun hmem => hentry (List.mem_map.2 ⟨_, hmem, rfl⟩)
      rw [get?_cons_self, List.mem_cons, or_iff_left hnone, Option.some_inj, Prod.ext_iff,
        and_iff_right rfl, eq_comm]
    · rw [get?_cons_of_ne hkey, ih hrest, List.mem_cons]
      exact (or_iff_right fun heq => hkey (congrArg Prod.fst heq)).symm

theorem get?_of_perm (h : u.Perm t) (hkeys : (t.map Prod.fst).Nodup) (key : String) :
    u.get? key = t.get? key := by
  refine Option.ext fun v => ?_
  rw [get?_eq_some_iff hkeys, get?_eq_some_iff ((h.map Prod.fst).nodup_iff.2 hkeys), h.mem_iff]

end Table

/-! Laws. -/

def limitPath (name : String) : Path := [.child "limits", .child name]

def variableName (field : String) : String :=
  "TURNSTILE__LIMITS__" ++ String.ofList (field.toList.map Char.toUpper)

/-- A truth value in any case, or the digits of a number in the range of 64 bits. -/
inductive Spells : String → Value → Prop
  | number {text : String} {n : Int} : int64Of? 10 text.toList = some n → Spells text (.int n)
  | flag {text : String} {b : Bool} : lower text = toString b → Spells text (.bool b)

/-- Keys of a mapping differ. A key starts at an entry of the table, a plain name is that entry, and
the variables of the limits lead to their fields. What is set changes only the entry where the path
starts: a table that is set where nothing was is there as it is, and a value that is set in a table
leaves the rest of this table. Numbers and truth values are read for what they are. -/
structure Library.Lawful (lib : Library) : Prop where
  distinct : ∀ {text : String} {t : Table}, lib.textEntries text = .ok t → (Value.table t).Distinct
  path_starts : ∀ key, ∃ name rest, lib.path key = .child name :: rest
  path_section : ∀ name ∈ ["limits", "logging"], lib.path name = [.child name]
  path_variable : ∀ field ∈ limitNames,
    ∃ key, lib.variableKey? (variableName field) = some key ∧ lib.path key = limitPath field
  ofVariable : ∀ {text : String} {v : Value}, Spells text v → lib.ofVariable text = v
  setPath_other : ∀ {name : String} {rest : Path} {t : Table} {new v : Value},
    lib.setPath new (.child name :: rest) (.table t) = .ok v →
      ∃ u : Table, v = .table u ∧ ∀ other ≠ name, u.get? other = t.get? other
  setPath_table : ∀ {name : String} {t m : Table}, (Value.table m).Distinct → t.get? name = none →
    ∃ u : Table, lib.setPath (.table m) [.child name] (.table t) = .ok (.table u) ∧
      u.get? name = some (.table m)
  setPath_field : ∀ {name field : String} {t : Table} {new : Value}, t.Maps name → ¬ new.IsTable →
    ∃ u m : Table, lib.setPath new [.child name, .child field] (.table t) = .ok (.table u) ∧
      u.get? name = some (.table m) ∧ m.get? field = some new ∧
        ∀ other ≠ field, m.get? other = (t.within name).get? other
  toInt?_int : ∀ n, lib.toInt? (.int n) = some n
  toBool?_bool : ∀ b, lib.toBool? (.bool b) = some b

/-! Layers. -/

namespace Library

variable {lib : Library} {t layer entries : Table} {name : String} {v : Value}

/-- The entry is absent or a mapping, and no other key of the table is a path into it. -/
structure Direct (lib : Library) (t : Table) (name : String) : Prop where
  mapping : t.Maps name
  only : ∀ entry ∈ t, (lib.path entry.1).head? = some (.child name) → entry.1 = name

instance (lib : Library) (t : Table) (name : String) : Decidable (lib.Direct t name) :=
  decidable_of_iff (t.Maps name ∧
      ∀ entry ∈ t, (lib.path entry.1).head? = some (.child name) → entry.1 = name)
    ⟨fun h => ⟨h.1, h.2⟩, fun h => ⟨h.1, h.2⟩⟩

theorem overlay_cons (lib : Library) (below : Value) (key : String) (new : Value) (layer : Table) :
    lib.overlay below ((key, new) :: layer) =
      lib.setPath new (lib.path key) below >>= fun v => lib.overlay v layer := rfl

theorem overlay_direct (lawful : lib.Lawful) (hpath : lib.path name = [.child name])
    (hkeys : (layer.map Prod.fst).Nodup) (htables : ∀ entry ∈ layer, entry.2.Distinct)
    (hdirect : lib.Direct layer name) (hfree : name ∈ layer.map Prod.fst → t.get? name = none)
    (h : lib.overlay (.table t) layer = .ok v) :
    ∃ u : Table, v = .table u ∧ u.get? name = (layer.get? name).or (t.get? name) := by
  induction layer generalizing t with
  | nil => exact ⟨t, (Except.ok.inj h).symm, rfl⟩
  | cons entry layer ih =>
    obtain ⟨key, new⟩ := entry
    obtain ⟨hnew, hlayerKeys⟩ := List.nodup_cons.1 hkeys
    obtain ⟨hnewTable, hlayerTables⟩ := List.forall_mem_cons.1 htables
    have honly : ∀ e ∈ layer, (lib.path e.1).head? = some (.child name) → e.1 = name :=
      fun e he => hdirect.only e (List.mem_cons_of_mem _ he)
    rw [overlay_cons, bind_eq_ok_iff] at h
    obtain ⟨w, hset, h⟩ := h
    obtain ⟨start, rest, hstarts⟩ := lawful.path_starts key
    by_cases hstart : start = name
    · -- Only the name itself leads to the entry, which was free for its table.
      subst hstart
      have hkey : key = start :=
        hdirect.only (key, new) (List.mem_cons_self ..) (by rw [hstarts]; rfl)
      subst hkey
      obtain ⟨m, rfl⟩ := hdirect.mapping new (Table.get?_cons_self key new layer)
      obtain ⟨u, hu, hentry⟩ := lawful.setPath_table hnewTable (hfree (List.mem_cons_self ..))
      rw [hpath, hu] at hset
      cases hset
      have hnone := Table.get?_eq_none hnew
      have hrest : lib.Direct layer key := ⟨fun v hv => absurd hv (by simp [hnone]), honly⟩
      obtain ⟨u', rfl, hu'⟩ :=
        ih hlayerKeys hlayerTables hrest (fun hmem => absurd hmem hnew) h
      refine ⟨u', rfl, ?_⟩
      rw [hu', hnone, hentry, Table.get?_cons_self]
      rfl
    · have hne : name ≠ key := by
        rintro rfl
        rw [hpath] at hstarts
        exact hstart (PathStep.child.inj (List.cons.inj hstarts).1).symm
      rw [hstarts] at hset
      obtain ⟨u, rfl, hothers⟩ := lawful.setPath_other hset
      have hsame := hothers name (Ne.symm hstart)
      have hrest : lib.Direct layer name :=
        ⟨fun v hv => hdirect.mapping v ((Table.get?_cons_of_ne hne new layer).trans hv), honly⟩
      obtain ⟨u', rfl, hu'⟩ := ih hlayerKeys hlayerTables hrest
        (fun hmem => hsame.trans (hfree (List.mem_cons_of_mem _ hmem))) h
      exact ⟨u', rfl, by rw [hu', hsame, Table.get?_cons_of_ne hne]⟩

theorem overlay_perm (lawful : lib.Lawful) (hname : name ∈ ["limits", "logging"])
    (hdistinct : (Value.table entries).Distinct) (hdirect : lib.Direct entries name)
    (hlayer : layer.Perm entries) (h : lib.overlay (.table []) layer = .ok v) :
    ∃ u : Table, v = .table u ∧ u.get? name = entries.get? name := by
  have hkeys := hdistinct.nodup_keys
  have hget := Table.get?_of_perm hlayer hkeys name
  have hdirect' : lib.Direct layer name :=
    ⟨fun v hv => hdirect.mapping v (hget ▸ hv), fun e he => hdirect.only e (hlayer.mem_iff.1 he)⟩
  obtain ⟨u, rfl, hu⟩ := overlay_direct lawful (lawful.path_section name hname)
    ((hlayer.map Prod.fst).nodup_iff.2 hkeys) (fun e he => hdistinct.of_mem (hlayer.mem_iff.1 he))
    hdirect' (fun _ => rfl) h
  exact ⟨u, rfl, hu.trans (by rw [hget]; exact Option.or_none)⟩

end Library
end Throttle.Config
