import Sleepytale.Lib.Lists
import Sleepytale.RouteTable

/-!
# What `validate` accepts, and what it says about the rest

`WellFormed` states the rules of a configuration with no order and no
accumulators: the default backend and the routes are treated alike, as the
owners of their backends. `Blames` says what each error asserts about the
configuration it is raised for. The validator accepts exactly the well-formed
configurations, and every error it raises is true of the configuration.
-/

namespace Sleepytale

open Sleepytale.Net
open Sleepytale.Lib.Maps
open Sleepytale.Lib.Lists
open Std (ExtTreeMap)

namespace Config

/-- The backend that an owner stands for. -/
def backendOf (config : Config) : Owner → Option BackendConfig
  | .defaultBackend => some config.defaultBackend
  | .route name => config.routes[name]?

structure WellFormed (config : Config) : Prop where
  listen_port : config.listen.port ≠ 0
  port : ∀ owner route, config.backendOf owner = some route → route.backend.port ≠ 0
  apart : ∀ owner route, config.backendOf owner = some route → route.backend ≠ config.listen
  command : ∀ owner route, config.backendOf owner = some route → route.server.command ≠ ""
  address : ∀ owner owner' route route', config.backendOf owner = some route →
    config.backendOf owner' = some route' → route.backend = route'.backend → owner = owner'
  name_length : ∀ (name : String) route, config.routes[name]? = some route →
    1 ≤ name.utf8ByteSize ∧ name.utf8ByteSize ≤ maxServerName
  name : ∀ (name name' : String) route route', config.routes[name]? = some route →
    config.routes[name']? = some route' → SameName name name' → name = name'
  console : ∀ owner owner' route route', config.backendOf owner = some route →
    config.backendOf owner' = some route' → route.server.forwardStdin = true →
    route'.server.forwardStdin = true → owner = owner'

end Config

/-- Two owners, of which `validate` meets the first one first. -/
def Owner.Before : Owner → Owner → Prop
  | defaultBackend, route _ => True
  | route other, route name => compare other name = .lt
  | _, defaultBackend => False

theorem Owner.Before.ne {owner owner' : Owner} (h : owner.Before owner') : owner ≠ owner' := by
  rintro rfl
  cases owner with
  | defaultBackend => exact h
  | route name =>
    rw [Before, Std.compare_self] at h
    cases h

/-- What an error asserts about the configuration. -/
def ConfigError.Blames (config : Config) : ConfigError → Prop
  | sharedListen listen => config.listen = listen ∧ config.backend = listen
  | listenPortZero => config.listen.port = 0
  | backendPortZero => config.backend.port = 0
  | emptyCommand => config.server.command = ""
  | routeNameLength name length =>
      name ∈ config.routes ∧ name.utf8ByteSize = length ∧ (length = 0 ∨ maxServerName < length)
  | routePortZero name => ∃ route, config.routes[name]? = some route ∧ route.backend.port = 0
  | routeListen name listen =>
      config.listen = listen ∧ ∃ route, config.routes[name]? = some route ∧ route.backend = listen
  | sameName other name =>
      other ∈ config.routes ∧ name ∈ config.routes ∧ compare other name = .lt ∧
        SameName other name
  | sameBackend owner name backend =>
      owner.Before (.route name) ∧ (∃ route, config.backendOf owner = some route ∧
        route.backend = backend) ∧
        ∃ route, config.routes[name]? = some route ∧ route.backend = backend
  | routeEmptyCommand name =>
      ∃ route, config.routes[name]? = some route ∧ route.server.command = ""
  | consoleShared interactive =>
      2 ≤ interactive ∧ ∃ owners : List Owner, owners.Nodup ∧ owners.length = interactive ∧
        ∀ owner, owner ∈ owners ↔
          ∃ route, config.backendOf owner = some route ∧ route.server.forwardStdin = true

theorem bind_unit_error {x y : Except ConfigError Unit} {error : ConfigError} :
    (x >>= fun _ => y) = .error error ↔
      x = .error error ∨ x = .ok () ∧ y = .error error := by
  cases x <;> simp [bind, Except.bind]

theorem ensure_error {cond : Prop} [Decidable cond] {error error' : ConfigError} :
    ensure cond error = .error error' ↔ ¬ cond ∧ error = error' := by
  by_cases h : cond <;> simp [ensure, h]

theorem vacant_error {α : Type} {previous : Option α} {error : α → ConfigError}
    {error' : ConfigError} :
    vacant previous error = .error error' ↔ ∃ other, previous = some other ∧ error other = error' := by
  cases previous <;> simp [vacant]

section Routes

variable {config : Config} {seen rest : List (String × BackendConfig)}
  {names : ExtTreeMap String String} {backends : ExtTreeMap SocketAddr Owner}

/-- What the loop has recorded of the routes it has seen. -/
structure Seen (config : Config) (seen : List (String × BackendConfig))
    (names : ExtTreeMap String String) (backends : ExtTreeMap SocketAddr Owner) : Prop where
  names : ∀ key other, names[key]? = some other →
    normalize other = key ∧ ∃ route, (other, route) ∈ seen
  backends : ∀ addr owner, backends[addr]? = some owner →
    (owner = .defaultBackend ∨ ∃ name route, owner = .route name ∧ (name, route) ∈ seen) ∧
    ∃ route, config.backendOf owner = some route ∧ route.backend = addr

theorem seen_first (config : Config) : Seen config [] ∅
    ((∅ : ExtTreeMap SocketAddr Owner).insert config.backend .defaultBackend) where
  names := by simp
  backends := by
    intro addr owner h
    rw [getElem?_insert_eq] at h
    split at h
    · next he =>
      obtain rfl := Option.some.inj h
      exact ⟨Or.inl rfl, _, rfl, he⟩
    · simp at h

theorem Seen.snoc (hs : Seen config seen names backends) {name : String} {route : BackendConfig}
    (hroute : config.routes[name]? = some route) :
    Seen config (seen ++ [(name, route)]) (names.insert (normalize name) name)
      (backends.insert route.backend (.route name)) where
  names := by
    intro key other h
    rw [getElem?_insert_eq] at h
    split at h
    · next he =>
      obtain rfl := Option.some.inj h
      exact ⟨he, route, by simp⟩
    · obtain ⟨hkey, route', hm⟩ := hs.names key other h
      exact ⟨hkey, route', List.mem_append_left _ hm⟩
  backends := by
    intro addr owner h
    rw [getElem?_insert_eq] at h
    split at h
    · next he =>
      obtain rfl := Option.some.inj h
      exact ⟨Or.inr ⟨name, route, rfl, by simp⟩, route, hroute, he⟩
    · obtain ⟨hown, hb⟩ := hs.backends addr owner h
      refine ⟨hown.imp_right ?_, hb⟩
      rintro ⟨name', route', rfl, hm⟩
      exact ⟨name', route', rfl, List.mem_append_left _ hm⟩

/-- Every error of the loop is true of the configuration. -/
theorem checkRoutes_blames (hs : Seen config seen names backends)
    (hall : config.routes.toList = seen ++ rest) {error : ConfigError}
    (h : checkRoutes config.listen rest names backends = .error error) :
    error.Blames config := by
  induction rest generalizing seen names backends with
  | nil => cases h
  | cons entry rest ih =>
    obtain ⟨name, route⟩ := entry
    have hget : ∀ {name' route'}, (name', route') ∈ seen ++ (name, route) :: rest →
        config.routes[name']? = some route' := by
      intro name' route' hm
      rw [← hall, ExtTreeMap.mem_toList_iff_getElem?_eq_some] at hm
      exact hm
    have hroute : config.routes[name]? = some route := hget (by simp)
    have hbefore : ∀ {name' route'}, (name', route') ∈ seen → compare name' name = .lt := by
      intro name' route' hm
      have hordered := ExtTreeMap.ordered_keys_toList (t := config.routes)
      rw [hall, List.pairwise_append] at hordered
      exact hordered.2.2 _ hm _ List.mem_cons_self
    have hin : ∀ {name' route'}, config.routes[name']? = some route' → name' ∈ config.routes := by
      intro name' route' hg
      rw [← ExtTreeMap.isSome_getElem?_iff_mem, hg]
      rfl
    simp only [checkRoutes, bind_unit_error, ensure_error, vacant_error] at h
    rcases h with ⟨hlen, rfl⟩ | ⟨-, ⟨hport, rfl⟩ | ⟨-, ⟨hlisten, rfl⟩ | ⟨-, ⟨other, hname, rfl⟩ |
      ⟨-, ⟨owner, hbackend, rfl⟩ | ⟨-, ⟨hcommand, rfl⟩ | ⟨-, hrest⟩⟩⟩⟩⟩⟩
    · exact ⟨hin hroute, rfl, by omega⟩
    · exact ⟨route, hroute, not_not.mp hport⟩
    · exact ⟨rfl, route, hroute, not_not.mp hlisten⟩
    · obtain ⟨hkey, route', hm⟩ := hs.names _ _ hname
      exact ⟨hin (hget (List.mem_append_left _ hm)), hin hroute, hbefore hm,
        (normalize_eq_iff _ _).mp hkey⟩
    · obtain ⟨hown, hb⟩ := hs.backends _ _ hbackend
      refine ⟨?_, hb, route, hroute, rfl⟩
      rcases hown with rfl | ⟨name', route', rfl, hm⟩
      · trivial
      · exact hbefore hm
    · exact ⟨route, hroute, not_not.mp hcommand⟩
    · exact ih (hs.snoc hroute) (by rw [hall, List.append_assoc]; rfl) hrest

/-- An accepted route passes the checks that concern it alone. -/
theorem checkRoutes_each {listen : SocketAddr}
    (h : checkRoutes listen rest names backends = .ok ()) :
    ∀ entry ∈ rest, (1 ≤ entry.1.utf8ByteSize ∧ entry.1.utf8ByteSize ≤ maxServerName) ∧
      entry.2.backend.port ≠ 0 ∧ entry.2.backend ≠ listen ∧ entry.2.server.command ≠ "" := by
  induction rest generalizing names backends with
  | nil => simp
  | cons entry rest ih =>
    obtain ⟨name, route⟩ := entry
    simp only [checkRoutes, bind_unit_ok, ensure_ok, vacant_ok] at h
    obtain ⟨hlen, hport, hlisten, _, _, hcommand, hrest⟩ := h
    exact List.forall_mem_cons.mpr ⟨⟨hlen, hport, hlisten, hcommand⟩, ih hrest⟩

end Routes

namespace Config

variable {config : Config}

/-- Everybody who owns a backend, with the backend. -/
def owners (config : Config) : List (Owner × BackendConfig) :=
  (.defaultBackend, config.defaultBackend) ::
    config.routes.toList.map fun entry => (.route entry.1, entry.2)

theorem mem_owners {owner : Owner} {route : BackendConfig} :
    (owner, route) ∈ config.owners ↔ config.backendOf owner = some route := by
  cases owner with
  | defaultBackend => simp [owners, backendOf, eq_comm]
  | route name =>
    rw [backendOf, ← ExtTreeMap.mem_toList_iff_getElem?_eq_some]
    simp [owners]

theorem owners_nodup (config : Config) : (config.owners.map (·.1)).Nodup := by
  have hnames : (config.routes.toList.map (·.1)).Nodup := by
    rw [ExtTreeMap.map_fst_toList_eq_keys]
    exact ExtTreeMap.nodup_keys
  have hroutes : ((config.routes.toList.map (·.1)).map Owner.route).Nodup :=
    hnames.map fun a b h => by cases h; rfl
  rw [owners, List.map_cons, List.map_map, List.nodup_cons]
  refine ⟨by simp, ?_⟩
  rw [List.map_map] at hroutes
  exact hroutes

/-- Those whose server is to read the console. -/
def readers (config : Config) : List Owner :=
  (config.owners.filter (·.2.server.forwardStdin)).map (·.1)

theorem length_readers (config : Config) : config.readers.length = config.interactive := by
  have hservers : config.server :: config.routes.toList.map (·.2.server) =
      config.owners.map (·.2.server) := by
    rw [owners, List.map_cons, List.map_map]
    rfl
  rw [interactive, hservers, List.filter_map, readers, List.length_map, List.length_map]
  rfl

theorem readers_nodup (config : Config) : config.readers.Nodup :=
  config.owners_nodup.sublist (List.filter_sublist.map _)

theorem mem_readers {owner : Owner} : owner ∈ config.readers ↔
    ∃ route, config.backendOf owner = some route ∧ route.server.forwardStdin = true := by
  simp only [readers, List.mem_map, List.mem_filter, Prod.exists, mem_owners]
  constructor
  · rintro ⟨_, route, ⟨hb, hr⟩, rfl⟩
    exact ⟨route, hb, hr⟩
  · rintro ⟨route, hb, hr⟩
    exact ⟨owner, route, ⟨hb, hr⟩, rfl⟩

theorem interactive_le_one_iff : config.interactive ≤ 1 ↔
    ∀ owner owner' route route', config.backendOf owner = some route →
      config.backendOf owner' = some route' → route.server.forwardStdin = true →
      route'.server.forwardStdin = true → owner = owner' := by
  rw [← length_readers, nodup_length_le_one_iff config.readers_nodup]
  constructor
  · intro h owner owner' route route' hb hb' hr hr'
    exact h owner (mem_readers.mpr ⟨route, hb, hr⟩) owner' (mem_readers.mpr ⟨route', hb', hr'⟩)
  · intro h owner hr owner' hr'
    obtain ⟨route, hb, hf⟩ := mem_readers.mp hr
    obtain ⟨route', hb', hf'⟩ := mem_readers.mp hr'
    exact h owner owner' route route' hb hb' hf hf'

/-- A condition on every backend is one on the default and one on each route. -/
theorem forall_backendOf {P : BackendConfig → Prop} :
    (∀ owner route, config.backendOf owner = some route → P route) ↔
      P config.defaultBackend ∧
        ∀ (name : String) route, config.routes[name]? = some route → P route := by
  constructor
  · intro h
    exact ⟨h .defaultBackend _ rfl, fun name => h (.route name)⟩
  · rintro ⟨hd, hr⟩ owner route h
    cases owner with
    | defaultBackend => exact Option.some.inj h ▸ hd
    | route name => exact hr name route h

theorem wellFormed_of_validate (h : config.validate = .ok ()) : config.WellFormed := by
  have hd := Config.distinct_of_validate h
  simp only [validate, bind_unit_ok, ensure_ok] at h
  obtain ⟨hlisten, hport, hbport, hcommand, hroutes, hconsole⟩ := h
  have heach : ∀ (name : String) (route : BackendConfig), config.routes[name]? = some route →
      (1 ≤ name.utf8ByteSize ∧ name.utf8ByteSize ≤ maxServerName) ∧ route.backend.port ≠ 0 ∧
        route.backend ≠ config.listen ∧ route.server.command ≠ "" := by
    intro name route hg
    exact checkRoutes_each hroutes (name, route)
      (ExtTreeMap.mem_toList_iff_getElem?_eq_some.mpr hg)
  refine ⟨hport, forall_backendOf.mpr ⟨hbport, fun name route hg => (heach name route hg).2.1⟩,
    forall_backendOf.mpr ⟨hlisten.symm, fun name route hg => (heach name route hg).2.2.1⟩,
    forall_backendOf.mpr ⟨hcommand, fun name route hg => (heach name route hg).2.2.2⟩, ?_,
    fun name route hg => (heach name route hg).1, ?_, interactive_le_one_iff.mp hconsole⟩
  · intro owner owner' route route' hb hb' he
    have hnodup : (config.owners.map (·.2.backend)).Nodup := by
      rw [owners, List.map_cons, List.map_map, List.nodup_cons]
      refine ⟨?_, hd.backends⟩
      simp only [List.mem_map, not_exists, not_and]
      intro entry hm heq
      exact hd.default_apart entry hm heq.symm
    have hpair := List.inj_on_of_nodup_map hnodup (mem_owners.mpr hb) (mem_owners.mpr hb') he
    exact (Prod.mk.inj hpair).1
  · intro name name' route route' hg hg' hsame
    have hm := ExtTreeMap.mem_toList_iff_getElem?_eq_some.mpr hg
    have hm' := ExtTreeMap.mem_toList_iff_getElem?_eq_some.mpr hg'
    have hpair := List.inj_on_of_nodup_map hd.names hm hm' ((normalize_eq_iff _ _).mpr hsame)
    exact (Prod.mk.inj hpair).1

theorem blames_of_validate {error : ConfigError} (h : config.validate = .error error) :
    error.Blames config := by
  simp only [validate, bind_unit_error, ensure_error] at h
  rcases h with ⟨hlisten, rfl⟩ | ⟨-, ⟨hport, rfl⟩ | ⟨-, ⟨hbport, rfl⟩ | ⟨-, ⟨hcommand, rfl⟩ |
    ⟨-, hroutes | ⟨-, hconsole, rfl⟩⟩⟩⟩⟩
  · exact ⟨rfl, (not_not.mp hlisten).symm⟩
  · exact not_not.mp hport
  · exact not_not.mp hbport
  · exact not_not.mp hcommand
  · exact checkRoutes_blames (seen_first config) rfl hroutes
  · exact ⟨by omega, config.readers, config.readers_nodup, config.length_readers,
      fun owner => mem_readers⟩

end Config

/-- Nothing true of a well-formed configuration is an error. -/
theorem ConfigError.Blames.not_wellFormed {config : Config} {error : ConfigError}
    (h : error.Blames config) : ¬ config.WellFormed := by
  intro hw
  have hroute : ∀ {name : String}, name ∈ config.routes →
      ∃ route, config.routes[name]? = some route := by
    intro name hm
    exact Option.isSome_iff_exists.mp (ExtTreeMap.isSome_getElem?_iff_mem.mpr hm)
  cases error with
  | sharedListen listen =>
    obtain ⟨rfl, hb⟩ := h
    exact hw.apart .defaultBackend _ rfl hb
  | listenPortZero => exact hw.listen_port h
  | backendPortZero => exact hw.port .defaultBackend _ rfl h
  | emptyCommand => exact hw.command .defaultBackend _ rfl h
  | routeNameLength name length =>
    obtain ⟨hm, rfl, hlen⟩ := h
    obtain ⟨route, hg⟩ := hroute hm
    have hok := hw.name_length name route hg
    omega
  | routePortZero name =>
    obtain ⟨route, hg, hport⟩ := h
    exact hw.port (.route name) route hg hport
  | routeListen name listen =>
    obtain ⟨rfl, route, hg, hb⟩ := h
    exact hw.apart (.route name) route hg hb
  | sameName other name =>
    obtain ⟨hm, hm', hlt, hsame⟩ := h
    obtain ⟨route, hg⟩ := hroute hm
    obtain ⟨route', hg'⟩ := hroute hm'
    obtain rfl := hw.name other name route route' hg hg' hsame
    rw [Std.compare_self] at hlt
    cases hlt
  | sameBackend owner name backend =>
    obtain ⟨hbefore, ⟨route, hb, rfl⟩, route', hg, he⟩ := h
    exact hbefore.ne (hw.address owner (.route name) route route' hb hg he.symm)
  | routeEmptyCommand name =>
    obtain ⟨route, hg, hcommand⟩ := h
    exact hw.command (.route name) route hg hcommand
  | consoleShared interactive =>
    obtain ⟨htwo, owners, hnodup, rfl, hmem⟩ := h
    have hone : owners.length ≤ 1 := by
      refine (nodup_length_le_one_iff hnodup).mpr fun owner ho owner' ho' => ?_
      obtain ⟨route, hb, hr⟩ := (hmem owner).mp ho
      obtain ⟨route', hb', hr'⟩ := (hmem owner').mp ho'
      exact hw.console owner owner' route route' hb hb' hr hr'
    omega

/-- `validate` accepts exactly the well-formed configurations, and the error it
raises for any other is true of it. -/
theorem validate_accepts_well_formed (config : Config) :
    (config.validate = .ok () ↔ config.WellFormed) ∧
    ∀ error, config.validate = .error error → error.Blames config := by
  refine ⟨⟨Config.wellFormed_of_validate, fun hw => ?_⟩, fun error => Config.blames_of_validate⟩
  cases h : config.validate with
  | ok u => rfl
  | error error => exact ((Config.blames_of_validate h).not_wellFormed hw).elim

end Sleepytale
