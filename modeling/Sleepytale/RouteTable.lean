import Sleepytale.Config
import Sleepytale.Lib.Maps

/-!
# What an accepted configuration guarantees of the route table

The validator's loop rules out exactly the collisions the later `collect`s would
merge: two routes with one normalised name, two backends with one address. The
name relation below is stated on the names themselves, not through `normalize`.
-/

namespace Sleepytale

open Sleepytale.Net
open Sleepytale.Lib.Maps
open Std (ExtTreeMap)

theorem ensure_ok {cond : Prop} [Decidable cond] {error : ConfigError} :
    ensure cond error = .ok () ↔ cond := by
  by_cases h : cond <;> simp [ensure, h]

theorem vacant_ok {α : Type} {previous : Option α} {error : α → ConfigError} :
    vacant previous error = .ok () ↔ previous = none := by
  cases previous <;> simp [vacant]

theorem bind_ok {ε α β : Type} {x : Except ε α} {f : α → Except ε β} {b : β} :
    (x >>= f) = .ok b ↔ ∃ a, x = .ok a ∧ f a = .ok b := by
  cases x with
  | error e => simp [bind, Except.bind]
  | ok a => simp [bind, Except.bind]

theorem bind_unit_ok {x y : Except ConfigError Unit} :
    (x >>= fun _ => y) = .ok () ↔ x = .ok () ∧ y = .ok () := by
  rw [bind_ok]
  constructor
  · intro h
    obtain ⟨_, hx, hy⟩ := h
    exact ⟨hx, hy⟩
  · intro h
    exact ⟨(), h.1, h.2⟩

/-- An accepted route is off the listen address, and what it adds to the names and
the addresses already seen. -/
theorem checkRoutes_cons_ok {listen : SocketAddr} {name : String} {route : BackendConfig}
    {rest : List (String × BackendConfig)} {names : ExtTreeMap String String}
    {backends : ExtTreeMap SocketAddr Owner}
    (h : checkRoutes listen ((name, route) :: rest) names backends = .ok ()) :
    route.backend ≠ listen ∧ names[normalize name]? = none ∧ backends[route.backend]? = none ∧
      checkRoutes listen rest (names.insert (normalize name) name)
        (backends.insert route.backend (.route name)) = .ok () := by
  simp only [checkRoutes, bind_unit_ok, ensure_ok, vacant_ok] at h
  obtain ⟨_, _, hlisten, hname, hbackend, _, hrest⟩ := h
  exact ⟨hlisten, hname, hbackend, hrest⟩

/-- Along an accepted list no name and no address repeats, nor meets one that
was recorded before the loop started. -/
theorem checkRoutes_distinct {listen : SocketAddr} {routes : List (String × BackendConfig)}
    {names : ExtTreeMap String String} {backends : ExtTreeMap SocketAddr Owner}
    (h : checkRoutes listen routes names backends = .ok ()) :
    (∀ route ∈ routes, names[normalize route.1]? = none) ∧
    (∀ route ∈ routes, backends[route.2.backend]? = none) ∧
    (routes.map fun route => normalize route.1).Nodup ∧
    (routes.map fun route => route.2.backend).Nodup := by
  induction routes generalizing names backends with
  | nil => simp
  | cons route rest ih =>
    obtain ⟨name, route⟩ := route
    obtain ⟨_, hname, hbackend, hrest⟩ := checkRoutes_cons_ok h
    obtain ⟨hn, hb, hpn, hpb⟩ := ih hrest
    -- A later route meets neither the earlier entries nor the one just inserted.
    have hn' : ∀ r ∈ rest, names[normalize r.1]? = none ∧ normalize name ≠ normalize r.1 := by
      intro r hr
      have hm := hn r hr
      rw [getElem?_insert_eq] at hm
      split at hm
      · cases hm
      · next hne => exact ⟨hm, hne⟩
    have hb' : ∀ r ∈ rest, backends[r.2.backend]? = none ∧ route.backend ≠ r.2.backend := by
      intro r hr
      have hm := hb r hr
      rw [getElem?_insert_eq] at hm
      split at hm
      · cases hm
      · next hne => exact ⟨hm, hne⟩
    refine ⟨?_, ?_, ?_, ?_⟩
    · exact List.forall_mem_cons.mpr ⟨hname, fun r hr => (hn' r hr).1⟩
    · exact List.forall_mem_cons.mpr ⟨hbackend, fun r hr => (hb' r hr).1⟩
    · rw [List.map_cons, List.nodup_cons, List.mem_map]
      exact ⟨fun ⟨r, hr, he⟩ => (hn' r hr).2 he.symm, hpn⟩
    · rw [List.map_cons, List.nodup_cons, List.mem_map]
      exact ⟨fun ⟨r, hr, he⟩ => (hb' r hr).2 he.symm, hpb⟩

/-- The facts about names and addresses an accepted configuration carries. -/
structure Config.Distinct (config : Config) : Prop where
  names : (config.routes.toList.map fun route => normalize route.1).Nodup
  backends : (config.routes.toList.map fun route => route.2.backend).Nodup
  default_apart : ∀ route ∈ config.routes.toList, config.backend ≠ route.2.backend

theorem Config.distinct_of_validate {config : Config} (h : config.validate = .ok ()) :
    config.Distinct := by
  simp only [Config.validate, bind_unit_ok, ensure_ok] at h
  obtain ⟨_, _, _, _, hroutes, _⟩ := h
  obtain ⟨_, hb, hpn, hpb⟩ := checkRoutes_distinct hroutes
  refine ⟨hpn, hpb, ?_⟩
  intro route hr he
  have hm := hb route hr
  rw [he, ExtTreeMap.getElem?_insert_self] at hm
  cases hm

theorem Config.table_keys_nodup {config : Config} (hd : config.Distinct) :
    ((config.routes.toList.map fun route => (normalize route.1, route.2)).map
      Prod.fst).Nodup := by
  rw [List.map_map]
  exact hd.names

/-- The collected table has one entry for each configured route. -/
theorem Config.table_size {config : Config} (hd : config.Distinct) :
    config.toRoutes.table.size = config.routes.size := by
  simp only [Config.toRoutes]
  rw [size_ofList (config.table_keys_nodup hd), List.length_map, ExtTreeMap.length_toList]

/-- The table maps a normalised name to the configuration of the route that has it. -/
theorem Config.table_getElem? {config : Config} (hd : config.Distinct) (key : String)
    (route : BackendConfig) :
    config.toRoutes.table[key]? = some route ↔
      ∃ name : String, config.routes[name]? = some route ∧ normalize name = key := by
  simp only [Config.toRoutes]
  rw [getElem?_ofList (config.table_keys_nodup hd), List.mem_map]
  constructor
  · rintro ⟨⟨name, route'⟩, hm, he⟩
    obtain ⟨rfl, rfl⟩ := Prod.mk.inj he
    exact ⟨name, ExtTreeMap.mem_toList_iff_getElem?_eq_some.mp hm, rfl⟩
  · rintro ⟨name, hname, rfl⟩
    exact ⟨(name, route), ExtTreeMap.mem_toList_iff_getElem?_eq_some.mpr hname, rfl⟩

theorem Config.mem_all {config : Config} (hd : config.Distinct) (route : BackendConfig) :
    route ∈ config.toRoutes.all ↔
      route = config.defaultBackend ∨ ∃ name : String, config.routes[name]? = some route := by
  have ht : route ∈ config.toRoutes.table.toList.map (·.2) ↔
      ∃ name : String, config.routes[name]? = some route := by
    rw [List.mem_map]
    constructor
    · rintro ⟨⟨key, route'⟩, hm, rfl⟩
      obtain ⟨name, hname, _⟩ := (config.table_getElem? hd key route').mp
        (ExtTreeMap.mem_toList_iff_getElem?_eq_some.mp hm)
      exact ⟨name, hname⟩
    · rintro ⟨name, hname⟩
      exact ⟨(normalize name, route), ExtTreeMap.mem_toList_iff_getElem?_eq_some.mpr
        ((config.table_getElem? hd _ route).mpr ⟨name, hname, rfl⟩), rfl⟩
  simp only [Routes.all, List.mem_cons, ht]
  rfl

/-- One ASCII letter in two cases, or twice the same character. -/
def SameLetter (x y : Char) : Prop :=
  x = y ∨ (x.isUpper = true ∧ y.toNat = x.toNat + 32) ∨
    (y.isUpper = true ∧ x.toNat = y.toNat + 32)

/-- The characters of a name without one optional trailing dot. -/
def baseName (name : String) : List Char :=
  if name.toList.getLast? = some '.' then name.toList.dropLast else name.toList

/-- Two names are equal up to ASCII case and one optional trailing dot. -/
def SameName (a b : String) : Prop := List.Forall₂ SameLetter (baseName a) (baseName b)

theorem isUpper_iff (x : Char) : x.isUpper = true ↔ 65 ≤ x.toNat ∧ x.toNat ≤ 90 := by
  show decide (x.val ≥ 'A'.val ∧ x.val ≤ 'Z'.val) = true ↔ _
  rw [decide_eq_true_eq]
  exact Iff.rfl

theorem toNat_toLower (x : Char) :
    x.toLower.toNat = if x.isUpper = true then x.toNat + 32 else x.toNat := by
  by_cases h : x.isUpper = true
  · have hr := (isUpper_iff x).mp h
    have hval : x.toLower.val = x.val + 32 := congrArg Char.val (dif_pos hr)
    have hsmall : x.val.toNat + 32 < 2 ^ 32 := by
      have hle : x.val.toNat ≤ 90 := hr.2
      omega
    rw [if_pos h, Char.toNat, hval, UInt32.toNat_add]
    exact Nat.mod_eq_of_lt hsmall
  · have hsame : x.toLower = x := dif_neg fun hr => h ((isUpper_iff x).mpr hr)
    rw [if_neg h, hsame]

theorem toLower_eq_iff (x y : Char) : x.toLower = y.toLower ↔ SameLetter x y := by
  have he : ∀ {c d : Char}, c.toNat = d.toNat ↔ c = d := by
    intro c d
    exact ⟨fun h => Char.ext (UInt32.toNat_inj.mp h), fun h => by rw [h]⟩
  have hx := isUpper_iff x
  have hy := isUpper_iff y
  rw [SameLetter, ← he, ← he, toNat_toLower, toNat_toLower]
  simp only [hx, hy]
  split <;> split <;> omega

theorem map_toLower_eq_iff : ∀ (xs ys : List Char),
    xs.map Char.toLower = ys.map Char.toLower ↔ List.Forall₂ SameLetter xs ys
  | [], ys => by cases ys <;> simp
  | x :: xs, [] => by simp
  | x :: xs, y :: ys => by
    rw [List.map_cons, List.map_cons, List.cons.injEq, List.forall₂_cons, toLower_eq_iff,
      map_toLower_eq_iff xs ys]

theorem toList_normalize (name : String) :
    (normalize name).toList = (baseName name).map Char.toLower := by
  unfold normalize toAsciiLowercase stripDot baseName
  split <;> simp

theorem normalize_eq_iff (a b : String) : normalize a = normalize b ↔ SameName a b := by
  rw [← String.toList_inj, toList_normalize, toList_normalize, map_toLower_eq_iff]
  rfl

/-- The configured name of a route, if the client's name has one. -/
def Matches (config : Config) (serverName : Option String) (name : String)
    (route : BackendConfig) : Prop :=
  ∃ asked, serverName = some asked ∧ config.routes[name]? = some route ∧ SameName name asked

theorem Matches.unique {config : Config} (hd : config.Distinct) {serverName : Option String}
    {name name' : String} {route route' : BackendConfig}
    (h : Matches config serverName name route) (h' : Matches config serverName name' route') :
    name = name' ∧ route = route' := by
  obtain ⟨asked, rfl, hr, hn⟩ := h
  obtain ⟨asked', he, hr', hn'⟩ := h'
  obtain rfl := Option.some.inj he
  have hsame : normalize name = normalize name' :=
    ((normalize_eq_iff _ _).mpr hn).trans ((normalize_eq_iff _ _).mpr hn').symm
  have ht := (config.table_getElem? hd (normalize name) route).mpr ⟨name, hr, rfl⟩
  have ht' := (config.table_getElem? hd (normalize name) route').mpr ⟨name', hr', hsame.symm⟩
  have hroute : route = route' := Option.some.inj (ht.symm.trans ht')
  -- Two configured names with one normal form would be two listed routes.
  have hm := ExtTreeMap.mem_toList_iff_getElem?_eq_some.mpr hr
  have hm' := ExtTreeMap.mem_toList_iff_getElem?_eq_some.mpr hr'
  have hpair := List.inj_on_of_nodup_map hd.names hm hm' hsame
  exact ⟨(Prod.mk.inj hpair).1, hroute⟩

/-- `resolve` follows the configured names: the matching route if there is one,
the default backend otherwise. -/
theorem resolve_of_matches {config : Config} (hd : config.Distinct)
    {serverName : Option String} {name : String} {route : BackendConfig}
    (h : Matches config serverName name route) :
    config.toRoutes.resolve serverName = route := by
  obtain ⟨asked, rfl, hr, hn⟩ := h
  have ht := (config.table_getElem? hd (normalize asked) route).mpr
    ⟨name, hr, (normalize_eq_iff _ _).mpr hn⟩
  simp only [Routes.resolve, Option.map_some, Option.bind_some, ht, Option.getD_some]

theorem resolve_of_no_match {config : Config} (hd : config.Distinct)
    {serverName : Option String} (h : ∀ name route, ¬ Matches config serverName name route) :
    config.toRoutes.resolve serverName = config.defaultBackend := by
  cases serverName with
  | none => rfl
  | some asked =>
    have ht : config.toRoutes.table[normalize asked]? = none := by
      cases hg : config.toRoutes.table[normalize asked]? with
      | none => rfl
      | some route =>
        obtain ⟨name, hr, hn⟩ := (config.table_getElem? hd _ route).mp hg
        exact absurd ⟨asked, rfl, hr, (normalize_eq_iff _ _).mp hn⟩ (h name route)
    simp only [Routes.resolve, Option.map_some, Option.bind_some, ht, Option.getD_none]
    rfl

/-- Whatever name is asked for, the answer is one of the configured backends. -/
theorem resolve_mem_all {config : Config} (serverName : Option String) :
    config.toRoutes.resolve serverName ∈ config.toRoutes.all := by
  unfold Routes.resolve Routes.all
  cases hg : (serverName.map normalize).bind fun name => config.toRoutes.table[name]? with
  | none => exact List.mem_cons_self
  | some route =>
    obtain ⟨name, _, ht⟩ := Option.bind_eq_some_iff.mp hg
    apply List.mem_cons_of_mem
    exact List.mem_map.mpr ⟨(name, route), ExtTreeMap.mem_toList_iff_getElem?_eq_some.mpr ht, rfl⟩

end Sleepytale
