import Mathlib.Data.List.Basic
import Throttle.Proofs.Paths

/-!
# Limits from variables

A variable sets one of the limits over what the file gives. The other limits and the logging stay
as the file or the defaults have them, for every set of variables and every order in which the
entries are taken, unless other keys of the file lead into the limits or the logging.
-/

namespace Throttle.Config

variable {lib : Library} {t u layer : Table} {name field key text : String} {new v : Value}
  {environment plain : List (String × String)} {settings : Settings} {l : Limits}

/-! Layers over the limits. -/

theorem limitPath_inj {name other : String} : limitPath name = limitPath other ↔ name = other := by
  simp [limitPath]

namespace Library

def lastGiven? (lib : Library) (name : String) : Table → Option Value
  | [] => none
  | (key, new) :: layer =>
    (lib.lastGiven? name layer).or (if lib.path key = limitPath name then some new else none)

def SetsLimits (lib : Library) (layer : Table) : Prop :=
  ∀ entry ∈ layer, (∃ name, lib.path entry.1 = limitPath name) ∧ ¬ entry.2.IsTable

theorem mem_of_lastGiven? (h : lib.lastGiven? name layer = some v) :
    ∃ key, (key, v) ∈ layer ∧ lib.path key = limitPath name := by
  induction layer with
  | nil => cases h
  | cons entry layer ih =>
    rw [lastGiven?, Option.or_eq_some_iff] at h
    rcases h with hrest | ⟨-, hentry⟩
    · obtain ⟨key, hmem, hkey⟩ := ih hrest
      exact ⟨key, List.mem_cons_of_mem _ hmem, hkey⟩
    · rw [Option.ite_none_right_eq_some] at hentry
      obtain ⟨hkey, hv⟩ := hentry
      exact ⟨entry.1, by rw [← Option.some.inj hv]; exact List.mem_cons_self .., hkey⟩

theorem lastGiven?_isSome (h : (key, v) ∈ layer) (hkey : lib.path key = limitPath name) :
    (lib.lastGiven? name layer).isSome := by
  induction layer with
  | nil => cases h
  | cons entry layer ih =>
    rw [lastGiven?, Option.isSome_or, Bool.or_eq_true]
    rcases List.mem_cons.1 h with rfl | hrest
    · exact .inr (by rw [if_pos hkey]; rfl)
    · exact .inl (ih hrest)

/-- A layer over the limits sets the last value it has for each, and changes nothing else. -/
theorem overlay_limits (lawful : lib.Lawful) (h : lib.SetsLimits layer) (ht : t.Maps "limits") :
    ∃ u : Table, lib.overlay (.table t) layer = .ok (.table u) ∧ u.Maps "limits" ∧
      (∀ other, other ≠ "limits" → u.get? other = t.get? other) ∧
      ∀ name, (u.within "limits").get? name =
        (lib.lastGiven? name layer).or ((t.within "limits").get? name) := by
  induction layer generalizing t with
  | nil => exact ⟨t, rfl, ht, fun _ _ => rfl, fun _ => rfl⟩
  | cons entry layer ih =>
    -- The first entry makes the limits a table even if there were none, and the rest goes over it.
    obtain ⟨⟨field, hfield⟩, hnew⟩ := h entry (List.mem_cons_self ..)
    obtain ⟨w, m, hset, hm, hgiven, hfields⟩ := lawful.setPath_field ht hnew
    obtain ⟨_, heq, hkept⟩ := lawful.setPath_other hset
    cases heq
    have hmaps : w.Maps "limits" := fun v hv => ⟨m, Option.some.inj (hv.symm.trans hm)⟩
    obtain ⟨u, hu, humaps, hothers, hlimits⟩ :=
      ih (fun e he => h e (List.mem_cons_of_mem entry he)) hmaps
    refine ⟨u, ?_, humaps, fun other hother => ?_, fun name => ?_⟩
    · rw [overlay_cons, hfield, limitPath, hset]
      exact hu
    · rw [hothers other hother, hkept other hother]
    · rw [hlimits, Table.within_of_get? hm, lastGiven?, Option.or_assoc, hfield]
      congr 1
      by_cases hname : field = name
      · subst hname
        rw [if_pos rfl, hgiven]
        rfl
      · rw [if_neg (mt limitPath_inj.1 hname), hfields name (Ne.symm hname)]
        rfl

end Library

/-! What is read from a table. -/

def Table.Reads {α : Type} (t : Table) (convert : Value → Option α) (name : String) (index : Nat)
    (default a : α) : Prop :=
  (Value.table t).read convert name index default = .ok a

theorem read_given {α : Type} {convert : Value → Option α} {embed : α → Value} {given : Option α}
    {index : Nat} {default a : α} (hconvert : ∀ a, convert (embed a) = some a)
    (hgiven : u.get? name = (given.map embed).or (t.get? name))
    (h : t.Reads convert name index default a) :
    u.Reads convert name index default (given.getD a) := by
  cases given with
  | none =>
    have hsame : u.get? name = t.get? name := hgiven
    rw [Table.Reads, Value.read, Value.field?, hsame]
    exact h
  | some b =>
    have hset : u.get? name = some (embed b) := hgiven
    rw [Table.Reads, Value.read, Value.field?, hset]
    simp only [hconvert]
    rfl

namespace Library

structure Gives (lib : Library) (t : Table) (l : Limits) (default : Limits := {}) : Prop where
  requestLimit : t.Reads lib.toInt? "request_limit" 0 default.requestLimit l.requestLimit
  windowSeconds : t.Reads lib.toInt? "window_seconds" 1 default.windowSeconds l.windowSeconds
  keepsHostile : t.Reads lib.toBool? "store_hostile_ips" 2 default.keepsHostile l.keepsHostile
  byIp : t.Reads lib.toBool? "limit_by_ip" 3 default.byIp l.byIp
  byUser : t.Reads lib.toBool? "limit_by_user" 4 default.byUser l.byUser
  byEndpoint : t.Reads lib.toBool? "limit_by_endpoint" 5 default.byEndpoint l.byEndpoint
  approvedOnly : t.Reads lib.toBool? "approved_users_only" 6 default.approvedOnly l.approvedOnly

theorem toLimits_iff : lib.toLimits (.table t) = .ok l ↔ lib.Gives t l := by
  simp only [toLimits, Value.isSection, Bool.not_true, Bool.false_eq_true, ↓reduceIte,
    bind_eq_ok_iff, pure, Except.pure, Except.ok.injEq]
  constructor
  · rintro ⟨r, hr, w, hw, k, hk, i, hi, us, hus, e, he, a, ha, rfl⟩
    exact ⟨hr, hw, hk, hi, hus, he, ha⟩
  · rintro ⟨hr, hw, hk, hi, hu, he, ha⟩
    exact ⟨_, hr, _, hw, _, hk, _, hi, _, hu, _, he, _, ha, rfl⟩

def logging (lib : Library) (t : Table) : Except Error Logging :=
  match t.get? "logging" with
  | some part => lib.toLogging part
  | none => .ok {}

theorem toSettings_eq (h : t.Maps "limits") :
    lib.toSettings (.table t) = lib.toLimits (.table (t.within "limits")) >>= fun limits =>
      lib.logging t >>= fun logging => .ok { limits := limits, logging := logging } := by
  -- An absent section is read as an empty one.
  rcases h.get?_eq with ⟨hnone, hempty⟩ | hsome
  · rw [hempty]
    cases hlogging : t.get? "logging" <;>
    simp only [toSettings, Value.field?, hnone, logging, hlogging] <;> rfl
  · cases hlogging : t.get? "logging" <;>
    simp only [toSettings, Value.field?, hsome, logging, hlogging] <;> rfl

theorem toSettings_iff (h : t.Maps "limits") :
    lib.toSettings (.table t) = .ok settings ↔
      lib.Gives (t.within "limits") settings.limits ∧ lib.logging t = .ok settings.logging := by
  simp only [toSettings_eq h, bind_eq_ok_iff, toLimits_iff, Except.ok.injEq]
  constructor
  · rintro ⟨l, hl, g, hg, rfl⟩
    exact ⟨hl, hg⟩
  · rintro ⟨hl, hg⟩
    exact ⟨_, hl, _, hg, rfl⟩

theorem toSettings_congr (hlimits : u.get? "limits" = t.get? "limits")
    (hlogging : u.get? "logging" = t.get? "logging") :
    lib.toSettings (.table u) = lib.toSettings (.table t) := by
  simp only [toSettings, Value.field?, hlimits, hlogging]

end Library

/-! Values for the limits. -/

structure Overrides where
  requestLimit : Option Int := none
  windowSeconds : Option Int := none
  keepsHostile : Option Bool := none
  byIp : Option Bool := none
  byUser : Option Bool := none
  byEndpoint : Option Bool := none
  approvedOnly : Option Bool := none

namespace Overrides

variable {o : Overrides}

def override (o : Overrides) (l : Limits) : Limits where
  requestLimit := o.requestLimit.getD l.requestLimit
  windowSeconds := o.windowSeconds.getD l.windowSeconds
  keepsHostile := o.keepsHostile.getD l.keepsHostile
  byIp := o.byIp.getD l.byIp
  byUser := o.byUser.getD l.byUser
  byEndpoint := o.byEndpoint.getD l.byEndpoint
  approvedOnly := o.approvedOnly.getD l.approvedOnly

def value? (o : Overrides) : String → Option Value
  | "request_limit" => o.requestLimit.map .int
  | "window_seconds" => o.windowSeconds.map .int
  | "store_hostile_ips" => o.keepsHostile.map .bool
  | "limit_by_ip" => o.byIp.map .bool
  | "limit_by_user" => o.byUser.map .bool
  | "limit_by_endpoint" => o.byEndpoint.map .bool
  | "approved_users_only" => o.approvedOnly.map .bool
  | _ => none

theorem value?_some (h : o.value? field = some v) :
    field ∈ limitNames ∧
      ((∃ n, v = .int n ∧ (o.requestLimit = some n ∨ o.windowSeconds = some n)) ∨
        ∃ b, v = .bool b) := by
  have flag {given : Option Bool} (h : given.map Value.bool = some v) : ∃ b, v = .bool b := by
    obtain ⟨b, -, hb⟩ := Option.map_eq_some_iff.1 h
    exact ⟨b, hb.symm⟩
  unfold value? at h
  split at h
  · obtain ⟨n, hn, rfl⟩ := Option.map_eq_some_iff.1 h
    exact ⟨by decide, .inl ⟨n, rfl, .inl hn⟩⟩
  · obtain ⟨n, hn, rfl⟩ := Option.map_eq_some_iff.1 h
    exact ⟨by decide, .inl ⟨n, rfl, .inr hn⟩⟩
  · exact ⟨by decide, .inr (flag h)⟩
  · exact ⟨by decide, .inr (flag h)⟩
  · exact ⟨by decide, .inr (flag h)⟩
  · exact ⟨by decide, .inr (flag h)⟩
  · exact ⟨by decide, .inr (flag h)⟩
  · cases h

theorem gives_override (lawful : lib.Lawful) (h : lib.Gives t l)
    (hvalues : ∀ name, u.get? name = (o.value? name).or (t.get? name)) :
    lib.Gives u (o.override l) where
  requestLimit := read_given lawful.toInt?_int (hvalues "request_limit") h.requestLimit
  windowSeconds := read_given lawful.toInt?_int (hvalues "window_seconds") h.windowSeconds
  keepsHostile := read_given lawful.toBool?_bool (hvalues "store_hostile_ips") h.keepsHostile
  byIp := read_given lawful.toBool?_bool (hvalues "limit_by_ip") h.byIp
  byUser := read_given lawful.toBool?_bool (hvalues "limit_by_user") h.byUser
  byEndpoint := read_given lawful.toBool?_bool (hvalues "limit_by_endpoint") h.byEndpoint
  approvedOnly := read_given lawful.toBool?_bool (hvalues "approved_users_only") h.approvedOnly

/-! Variables. -/

/-- The variables of an environment that set anything are those of the values. -/
structure SetBy (o : Overrides) (lib : Library) (environment : List (String × String)) : Prop where
  set : ∀ {field v}, o.value? field = some v →
    ∃ text, (variableName field, text) ∈ environment ∧ Spells text v
  only : ∀ {name text}, (name, text) ∈ environment → (lib.variableKey? name).isSome →
    ∃ field v, name = variableName field ∧ o.value? field = some v ∧ Spells text v

theorem SetBy.mem_iff (h : o.SetBy lib environment) (lawful : lib.Lawful) :
    (key, v) ∈ lib.variableEntries environment ↔
      ∃ field, o.value? field = some v ∧ lib.variableKey? (variableName field) = some key := by
  simp only [Library.variableEntries, List.mem_filterMap, Option.map_eq_some_iff, Prod.mk.injEq]
  constructor
  · rintro ⟨⟨name, text⟩, hmem, _, hkey, rfl, rfl⟩
    obtain ⟨field, w, rfl, hw, hspells⟩ := h.only hmem (by rw [hkey]; rfl)
    rw [lawful.ofVariable hspells]
    exact ⟨field, hw, hkey⟩
  · rintro ⟨field, hv, hkey⟩
    obtain ⟨text, hmem, hspells⟩ := h.set hv
    exact ⟨_, hmem, key, hkey, rfl, lawful.ofVariable hspells⟩

theorem SetBy.setsLimits (h : o.SetBy lib environment) (lawful : lib.Lawful)
    (hlayer : layer.Perm (lib.variableEntries environment)) : lib.SetsLimits layer := by
  rintro ⟨key, v⟩ hmem
  obtain ⟨field, hv, hkey⟩ := (h.mem_iff lawful).1 (hlayer.mem_iff.1 hmem)
  obtain ⟨hfield, hkind⟩ := value?_some hv
  obtain ⟨_, hname, hpath⟩ := lawful.path_variable field hfield
  cases hkey.symm.trans hname
  refine ⟨⟨field, hpath⟩, ?_⟩
  rintro ⟨u, hu⟩
  rcases hkind with ⟨n, rfl, -⟩ | ⟨b, rfl⟩ <;> cases hu

theorem SetBy.lastGiven?_eq (h : o.SetBy lib environment) (lawful : lib.Lawful)
    (hlayer : layer.Perm (lib.variableEntries environment)) (name : String) :
    lib.lastGiven? name layer = o.value? name := by
  cases hlast : lib.lastGiven? name layer with
  | some v =>
    obtain ⟨key, hmem, hpath⟩ := Library.mem_of_lastGiven? hlast
    obtain ⟨field, hv, hkey⟩ := (h.mem_iff lawful).1 (hlayer.mem_iff.1 hmem)
    obtain ⟨_, hname, hfield⟩ := lawful.path_variable field (value?_some hv).1
    cases hkey.symm.trans hname
    rw [← limitPath_inj.1 (hfield.symm.trans hpath)]
    exact hv.symm
  | none =>
    cases hv : o.value? name with
    | none => rfl
    | some v =>
      obtain ⟨key, hkey, hpath⟩ := lawful.path_variable name (value?_some hv).1
      have hmem := hlayer.mem_iff.2 ((h.mem_iff lawful).2 ⟨name, hv, hkey⟩)
      have hsome := Library.lastGiven?_isSome hmem hpath
      rw [hlast] at hsome
      cases hsome

def Fits (o : Overrides) : Prop :=
  ∀ n, o.requestLimit = some n ∨ o.windowSeconds = some n → inInt64 n

def toEnvironment (o : Overrides) : List (String × String) :=
  limitNames.filterMap fun field =>
    ((o.value? field).bind Value.toText?).map fun text => (variableName field, text)

theorem spells_toText? (h : o.Fits) (hv : o.value? field = some v) :
    ∃ text, v.toText? = some text ∧ Spells text v := by
  rcases (value?_some hv).2 with ⟨n, rfl, hn⟩ | ⟨b, rfl⟩
  · exact ⟨_, rfl, .number (int64Of?_toString (h n hn))⟩
  · exact ⟨_, rfl, .flag (by cases b <;> rfl)⟩

theorem setBy_toEnvironment (lib : Library) (h : o.Fits) : o.SetBy lib o.toEnvironment where
  set {field v} hv := by
    obtain ⟨text, htext, hspells⟩ := spells_toText? h hv
    refine ⟨text, List.mem_filterMap.2 ⟨field, (value?_some hv).1, ?_⟩, hspells⟩
    rw [hv, Option.bind_some, htext]
    rfl
  only {name text} hmem _ := by
    obtain ⟨field, -, hvariable⟩ := List.mem_filterMap.1 hmem
    obtain ⟨_, hbind, heq⟩ := Option.map_eq_some_iff.1 hvariable
    obtain ⟨v, hv, htext⟩ := Option.bind_eq_some_iff.1 hbind
    cases heq
    obtain ⟨_, htext', hspells⟩ := spells_toText? h hv
    cases htext.symm.trans htext'
    exact ⟨field, v, rfl, hv, hspells⟩

end Overrides

/-! Files with variables over them. -/

namespace Library

variable {file : File} {order : Order}

def entries (lib : Library) (file : File) : Table :=
  match lib.fileEntries file with
  | .ok t => t
  | .error _ => []

theorem load_ok_iff :
    lib.load order file environment = .ok settings ↔
      ∃ entries, lib.fileEntries file = .ok entries ∧
        ∃ below, lib.overlay (.table []) (order.arrange entries) = .ok below ∧
          ∃ all, lib.overlay below (order.arrange (lib.variableEntries environment)) = .ok all ∧
            lib.toSettings all = .ok settings := by
  simp only [load, bind_eq_ok_iff]

theorem distinct_entries (lawful : lib.Lawful) (file : File) :
    (Value.table (lib.entries file)).Distinct := by
  cases file with
  | unnamed | missing => exact Value.distinct_nil
  | text content =>
    rw [entries, fileEntries]
    split
    · rename_i hcontent
      exact lawful.distinct hcontent
    · exact Value.distinct_nil

theorem arrange_plain (h : ∀ pair ∈ plain, lib.variableKey? pair.1 = none) (order : Order) :
    order.arrange (lib.variableEntries plain) = [] := by
  have hnone : lib.variableEntries plain = [] :=
    List.filterMap_eq_nil_iff.2 fun pair hmem => Option.map_eq_none_iff.2 (h pair hmem)
  rw [hnone]
  exact List.perm_nil.1 (order.perm [])

/-- Without variables the settings are those of the file's entries, in every order. -/
theorem load_plain (lawful : lib.Lawful) (hlimits : lib.Direct (lib.entries file) "limits")
    (hlogging : lib.Direct (lib.entries file) "logging")
    (hplain : ∀ pair ∈ plain, lib.variableKey? pair.1 = none)
    (hload : lib.load order file plain = .ok settings) :
    lib.toSettings (.table (lib.entries file)) = .ok settings ∧
      lib.fileEntries file = .ok (lib.entries file) ∧
      ∃ u : Table, lib.overlay (.table []) (order.arrange (lib.entries file)) = .ok (.table u) ∧
        u.Maps "limits" ∧ lib.toSettings (.table u) = .ok settings := by
  obtain ⟨t, hfile, below, hbelow, all, hall, hsettings⟩ := load_ok_iff.1 hload
  have hentries : lib.entries file = t := by rw [entries, hfile]
  rw [arrange_plain hplain] at hall
  cases hall
  have hdistinct := distinct_entries lawful file
  rw [hentries] at hlimits hlogging hdistinct ⊢
  obtain ⟨u, rfl, hsame⟩ :=
    overlay_perm lawful (by decide) hdistinct hlimits (order.perm t) hbelow
  obtain ⟨_, heq, hsame'⟩ :=
    overlay_perm lawful (by decide) hdistinct hlogging (order.perm t) hbelow
  cases heq
  refine ⟨toSettings_congr hsame hsame' ▸ hsettings, hfile, u, hbelow, ?_, hsettings⟩
  exact fun v hv => hlimits.mapping v (hsame ▸ hv)

theorem load_variables (lawful : lib.Lawful) (hfile : lib.fileEntries file = .ok t)
    (hbelow : lib.overlay (.table []) (order.arrange t) = .ok (.table u)) (hmaps : u.Maps "limits")
    (hsettings : lib.toSettings (.table u) = .ok settings) {o : Overrides}
    (hset : o.SetBy lib environment) :
    lib.load order file environment =
      .ok { settings with limits := o.override settings.limits } := by
  have hlayer := order.perm (lib.variableEntries environment)
  obtain ⟨hgives, hlogging⟩ := (toSettings_iff hmaps).1 hsettings
  obtain ⟨w, hall, hwmaps, hothers, hvalues⟩ :=
    overlay_limits lawful (hset.setsLimits lawful hlayer) hmaps
  simp only [hset.lastGiven?_eq lawful hlayer] at hvalues
  have hlog : lib.logging w = lib.logging u := by
    rw [logging, logging, hothers "logging" (by decide)]
  refine load_ok_iff.2 ⟨t, hfile, .table u, hbelow, .table w, hall, ?_⟩
  exact (toSettings_iff hwmaps).2
    ⟨Overrides.gives_override lawful hgives hvalues, hlog.trans hlogging⟩

/-- Where a file loads without variables, it loads as its entries say, with the defaults for the
rest, whatever the order in which the entries are taken. Variables for some of the limits replace
these and nothing else, and every choice of values has such variables. Without a file everything is
left at its default. -/
theorem load_override (lawful : lib.Lawful) (hlimits : lib.Direct (lib.entries file) "limits")
    (hlogging : lib.Direct (lib.entries file) "logging")
    (hplain : ∀ pair ∈ plain, lib.variableKey? pair.1 = none)
    (hload : lib.load order file plain = .ok settings) :
    lib.toSettings (.table (lib.entries file)) = .ok settings ∧
    (∀ other : Order, (∃ loaded, lib.load other file plain = .ok loaded) →
      lib.load other file plain = .ok settings ∧
      ∀ (o : Overrides) (environment : List (String × String)), o.SetBy lib environment →
        lib.load other file environment =
          .ok { settings with limits := o.override settings.limits }) ∧
    (∀ o : Overrides, o.Fits → o.SetBy lib o.toEnvironment) ∧
    (file = .unnamed → settings = {}) := by
  obtain ⟨hread, -⟩ := load_plain lawful hlimits hlogging hplain hload
  refine ⟨hread, ?_, fun o => Overrides.setBy_toEnvironment lib, ?_⟩
  · rintro other ⟨loaded, hloaded⟩
    obtain ⟨hread', hfile, u, hbelow, hmaps, hsettings⟩ :=
      load_plain lawful hlimits hlogging hplain hloaded
    cases hread.symm.trans hread'
    exact ⟨hloaded, fun o environment => load_variables lawful hfile hbelow hmaps hsettings⟩
  · rintro rfl
    exact (Except.ok.inj hread).symm

/-- A file with some of the limits, and variables for one of these and for another one. The entries
of the file and of the environment may as well be taken from the end. -/
theorem load_override_of_limits :
    let file := File.text
      "limits:\n  request_limit: 7\n  limit_by_ip: true\nlogging:\n  level: debug\n"
    let settings : Settings :=
      { limits := { requestLimit := 7, byIp := true }, logging := { level := "debug" } }
    let o : Overrides := { requestLimit := some (-9), byUser := some false }
    standard.load .asWritten file [("HOME", "/root")] = .ok settings ∧
      standard.load .reversed file o.toEnvironment = .ok { settings with
        limits := { requestLimit := -9, byIp := true, byUser := false } } := by
  intro file settings o
  have hload : standard.load .asWritten file [("HOME", "/root")] = .ok settings := by
    decide +kernel
  have hreversed : standard.load .reversed file [("HOME", "/root")] = .ok settings := by
    decide +kernel
  have hfits : o.Fits := by
    rintro n (hn | hn)
    · cases hn
      decide
    · cases hn
  have hoverride := load_override standard_lawful
    (by decide +kernel : standard.Direct (standard.entries file) "limits") (by decide +kernel)
    (by decide +kernel) hload
  exact ⟨hload, (hoverride.2.1 .reversed ⟨_, hreversed⟩).2 o o.toEnvironment
    (hoverride.2.2.1 o hfits)⟩

/-- Another key that leads into the limits counts as the order has it. -/
theorem load_depends_on_order :
    let file := File.text "limits:\n  request_limit: 5\nlimits.request_limit: 7\n"
    standard.load .asWritten file [] = .ok { limits := { requestLimit := 7 } } ∧
      standard.load .reversed file [] = .ok { limits := { requestLimit := 5 } } := by
  decide +kernel

end Library

/-- A key that is a path to the first item of the limits makes them a list, which gives the request
limit. A variable for the window drops the list, and the request limit is the default again. -/
theorem Settings.load_drops_items :
    let file := File.text "\"limits[0]\": 5\n"
    let o : Overrides := { windowSeconds := some 60 }
    let environment := [("TURNSTILE__LIMITS__WINDOW_SECONDS", "60")]
    let entries := Library.standard.entries file
    entries.Maps "limits" ∧ entries.Maps "logging" ∧ o.SetBy .standard environment ∧
      load file [] = .ok { limits := { requestLimit := 5 } } ∧
      o.override { requestLimit := 5 } = { requestLimit := 5, windowSeconds := 60 } ∧
      load file environment = .ok { limits := { requestLimit := 100, windowSeconds := 60 } } := by
  intro file o environment entries
  have hfits : o.Fits := by
    rintro n (hn | hn)
    · cases hn
    · cases hn
      decide
  have henvironment : o.toEnvironment = environment := by decide +kernel
  refine ⟨by decide +kernel, by decide +kernel, ?_, by decide +kernel, rfl, by decide +kernel⟩
  exact henvironment ▸ Overrides.setBy_toEnvironment _ hfits

end Throttle.Config
