import Rulebook.Config.Layers
import Rulebook.Proofs.Layering

/-!
# Settings chosen one by one

A configuration has thirteen settings, two of its own and the others in four sections. Reading it
off a tree looks at nothing but what stands at their thirteen paths (`ofSetting?_eq_some_iff`), and
it can be read exactly if each of the values found there can (`exists_chosen_iff`). So what is known
of a tree at one path is known of the whole configuration.
-/

namespace Rulebook.Config

open Setting

/-! ## Settings one by one

What is chosen says, setting by setting, what is read from the value that `look` finds there. -/

/-- A server section whose settings are chosen one by one. -/
structure Server.Chosen (look : String → Option Setting) (c : Server) : Prop where
  host : orDefault (Server.host {}) asText? (look "host") = some c.host
  port : orDefault (Server.port {}) (asNatBelow? (Nat.pow 2 16)) (look "port") = some c.port

/-- A reporting section whose settings are chosen one by one. -/
structure Reporting.Chosen (look : String → Option Setting) (c : Reporting) : Prop where
  logLevel : orDefault (Reporting.logLevel {}) asText? (look "log_level") = some c.logLevel
  logFormat : orDefault (Reporting.logFormat {}) asText? (look "log_format") = some c.logFormat
  metricsEnabled : orDefault (Reporting.metricsEnabled {}) asBool? (look "metrics_enabled")
    = some c.metricsEnabled
  metricsPort : orDefault (Reporting.metricsPort {}) (asNatBelow? (Nat.pow 2 16))
    (look "metrics_port") = some c.metricsPort

/-- An engine section whose settings are chosen one by one. -/
structure Engine.Chosen (look : String → Option Setting) (c : Engine) : Prop where
  mode : orDefault (Engine.mode {}) asText? (look "parser_mode") = some c.mode
  strategy : orDefault (Engine.strategy {}) asText? (look "combine_strategy") = some c.strategy
  traced : orDefault (Engine.traced {}) asBool? (look "trace_enabled") = some c.traced
  maxDepth : orDefault (Engine.maxDepth {}) asNat? (look "max_depth") = some c.maxDepth

/-- A section of origins whose setting is chosen. -/
structure Origins.Chosen (look : String → Option Setting) (c : Origins) : Prop where
  allowed : orDefault (Origins.allowed {}) asTexts? (look "allowed_origins") = some c.allowed

/-- A configuration whose settings are chosen one by one, each by its path. The names of the
service and its environment must be found. -/
structure Chosen (look : List String → Option Setting) (c : Config) : Prop where
  serviceName : (look ["service_name"]).bind asText? = some c.serviceName
  environment : (look ["environment"]).bind asText? = some c.environment
  server : Server.Chosen (fun name => look ["server", name]) c.server
  reporting : Reporting.Chosen (fun name => look ["observability", name]) c.reporting
  engine : Engine.Chosen (fun name => look ["engine", name]) c.engine
  origins : Origins.Chosen (fun name => look ["cors", name]) c.origins

section Decidable

variable {look : String → Option Setting}

instance (c : Server) : Decidable (Server.Chosen look c) :=
  decidable_of_iff _ (Iff.symm ⟨fun h => And.intro h.host h.port, fun h => ⟨h.1, h.2⟩⟩)

instance (c : Reporting) : Decidable (Reporting.Chosen look c) :=
  decidable_of_iff _ (Iff.symm
    ⟨fun h => And.intro (And.intro h.logLevel h.logFormat)
        (And.intro h.metricsEnabled h.metricsPort),
      fun h => ⟨h.1.1, h.1.2, h.2.1, h.2.2⟩⟩)

instance (c : Engine) : Decidable (Engine.Chosen look c) :=
  decidable_of_iff _ (Iff.symm
    ⟨fun h => And.intro (And.intro h.mode h.strategy) (And.intro h.traced h.maxDepth),
      fun h => ⟨h.1.1, h.1.2, h.2.1, h.2.2⟩⟩)

instance (c : Origins) : Decidable (Origins.Chosen look c) :=
  decidable_of_iff _ (Iff.symm ⟨fun h => h.allowed, fun h => ⟨h⟩⟩)

instance {look : List String → Option Setting} (c : Config) : Decidable (Chosen look c) :=
  decidable_of_iff _ (Iff.symm
    ⟨fun h => And.intro (And.intro (And.intro h.serviceName h.environment)
        (And.intro h.server h.reporting)) (And.intro h.engine h.origins),
      fun h => ⟨h.1.1.1, h.1.1.2, h.1.2.1, h.1.2.2, h.2.1, h.2.2⟩⟩)

end Decidable

/-- The settings, each by its path and whether a value can be read as it. -/
def kinds : List (List String × (Setting → Bool)) :=
  let isText (s : Setting) : Bool := s.asText?.isSome
  let isTruth (s : Setting) : Bool := s.asBool?.isSome
  let isPort (s : Setting) : Bool := (s.asNatBelow? (Nat.pow 2 16)).isSome
  [(["service_name"], isText), (["environment"], isText),
   (["server", "host"], isText), (["server", "port"], isPort),
   (["observability", "log_level"], isText), (["observability", "log_format"], isText),
   (["observability", "metrics_enabled"], isTruth), (["observability", "metrics_port"], isPort),
   (["engine", "parser_mode"], isText), (["engine", "combine_strategy"], isText),
   (["engine", "trace_enabled"], isTruth), (["engine", "max_depth"], fun s => s.asNat?.isSome),
   (["cors", "allowed_origins"], fun s => s.asTexts?.isSome)]

/-- The paths of the settings. -/
def settings : List (List String) := kinds.map Prod.fst

/-! ## Sections -/

section Sections

variable {entries : List (String × Setting)}

theorem guard_isSection_table {α : Type} (f : Unit → Option α) :
    (guard ((Setting.table entries).isSection = true) >>= f) = f () := rfl

theorem Server.ofSetting?_table_iff {c : Server} :
    Server.ofSetting? (.table entries) = some c
      ↔ Server.Chosen (fun name => entries.lookup name) c := by
  obtain ⟨host, port⟩ := c
  dsimp only [Server.ofSetting?]
  rw [guard_isSection_table]
  simp only [part?, Option.pure_def, Option.bind_eq_bind, Option.bind_eq_some_iff,
    Option.some.injEq, mk.injEq]
  constructor
  · rintro ⟨_, hhost, _, hport, rfl, rfl⟩
    exact ⟨hhost, hport⟩
  · rintro ⟨hhost, hport⟩
    exact ⟨_, hhost, _, hport, rfl, rfl⟩

theorem Reporting.ofSetting?_table_iff {c : Reporting} :
    Reporting.ofSetting? (.table entries) = some c
      ↔ Reporting.Chosen (fun name => entries.lookup name) c := by
  obtain ⟨logLevel, logFormat, metricsEnabled, metricsPort⟩ := c
  dsimp only [Reporting.ofSetting?]
  rw [guard_isSection_table]
  simp only [part?, Option.pure_def, Option.bind_eq_bind, Option.bind_eq_some_iff,
    Option.some.injEq, mk.injEq]
  constructor
  · rintro ⟨_, hlevel, _, hformat, _, henabled, _, hport, rfl, rfl, rfl, rfl⟩
    exact ⟨hlevel, hformat, henabled, hport⟩
  · rintro ⟨hlevel, hformat, henabled, hport⟩
    exact ⟨_, hlevel, _, hformat, _, henabled, _, hport, rfl, rfl, rfl, rfl⟩

theorem Engine.ofSetting?_table_iff {c : Engine} :
    Engine.ofSetting? (.table entries) = some c
      ↔ Engine.Chosen (fun name => entries.lookup name) c := by
  obtain ⟨mode, strategy, traced, maxDepth⟩ := c
  dsimp only [Engine.ofSetting?]
  rw [guard_isSection_table]
  simp only [part?, Option.pure_def, Option.bind_eq_bind, Option.bind_eq_some_iff,
    Option.some.injEq, mk.injEq]
  constructor
  · rintro ⟨_, hmode, _, hstrategy, _, htraced, _, hdepth, rfl, rfl, rfl, rfl⟩
    exact ⟨hmode, hstrategy, htraced, hdepth⟩
  · rintro ⟨hmode, hstrategy, htraced, hdepth⟩
    exact ⟨_, hmode, _, hstrategy, _, htraced, _, hdepth, rfl, rfl, rfl, rfl⟩

theorem Origins.ofSetting?_table_iff {c : Origins} :
    Origins.ofSetting? (.table entries) = some c
      ↔ Origins.Chosen (fun name => entries.lookup name) c := by
  obtain ⟨allowed⟩ := c
  dsimp only [Origins.ofSetting?]
  rw [guard_isSection_table]
  simp only [part?, Option.pure_def, Option.bind_eq_bind, Option.bind_eq_some_iff,
    Option.some.injEq, mk.injEq]
  constructor
  · rintro ⟨_, hallowed, rfl⟩
    exact ⟨hallowed⟩
  · rintro ⟨hallowed⟩
    exact ⟨_, hallowed, rfl⟩

/-- A section of a tree that is clear at its path: what is read of it is chosen from what stands at
the paths below. The section that is missing is like one without entries. -/
theorem orDefault_section_iff {α : Type} {default c : α} {read : Setting → Option α}
    {P : (String → Option Setting) → α → Prop} {tree : Setting} {title first : String}
    (position : Nat)
    (hread : ∀ entries, read (.table entries) = some c ↔ P (fun name => entries.lookup name) c)
    (hdefault : read (.table []) = some default) (hclear : Clear [title, first] tree) :
    orDefault default read (tree.part? position title) = some c
      ↔ P (fun name => tree.at? [title, name]) c := by
  cases tree with
  | table members =>
    simp only [part?, Setting.at?]
    cases hlookup : members.lookup title with
    | none =>
      have hempty := hread []
      rw [hdefault] at hempty
      exact hempty
    | some value =>
      have hvalue := hclear value hlookup
      cases value with
      | table entries =>
        have hat : ∀ name, (some (Setting.table entries)).bind (Setting.at? [name])
            = entries.lookup name := fun name => Option.bind_fun_some _
        simp only [hat]
        exact hread entries
      | _ => exact hvalue.elim
  | _ => exact hclear.elim

end Sections

theorem part?_eq_at? {tree : Setting} {name : String} (position : Nat)
    (hclear : Clear [name] tree) : tree.part? position name = tree.at? [name] := by
  cases tree with
  | table entries => exact (Option.bind_fun_some _).symm
  | _ => exact hclear.elim

/-- **A configuration is read off its paths.** A tree in which nothing gets in the way of the
settings is the configuration that is chosen from what stands at their paths. -/
theorem ofSetting?_eq_some_iff {tree : Setting} {c : Config}
    (hclear : ∀ path ∈ settings, Clear path tree) :
    ofSetting? tree = some c ↔ Chosen (fun path => tree.at? path) c := by
  have hserviceName := part?_eq_at? 0 (hclear ["service_name"] (by decide))
  have henvironment := part?_eq_at? 1 (hclear ["environment"] (by decide))
  have hserver {d} := orDefault_section_iff 2 (fun _ => Server.ofSetting?_table_iff (c := d)) rfl
    (hclear ["server", "host"] (by decide))
  have hreporting {d} := orDefault_section_iff 3
    (fun _ => Reporting.ofSetting?_table_iff (c := d)) rfl
    (hclear ["observability", "log_level"] (by decide))
  have hengine {d} := orDefault_section_iff 4 (fun _ => Engine.ofSetting?_table_iff (c := d)) rfl
    (hclear ["engine", "max_depth"] (by decide))
  have horigins {d} := orDefault_section_iff 5 (fun _ => Origins.ofSetting?_table_iff (c := d)) rfl
    (hclear ["cors", "allowed_origins"] (by decide))
  obtain ⟨serviceName, environment, server, reporting, engine, origins⟩ := c
  simp only [ofSetting?, hserviceName, henvironment, Option.pure_def, Option.bind_eq_bind,
    Option.bind_eq_some_iff, Option.some.injEq, mk.injEq]
  constructor
  · rintro ⟨n, hn, _, hname, e, he, _, henv, _, hs, _, hr, _, hg, _, ho, rfl, rfl, rfl, rfl, rfl,
      rfl⟩
    exact ⟨Option.bind_eq_some_iff.2 ⟨n, hn, hname⟩, Option.bind_eq_some_iff.2 ⟨e, he, henv⟩,
      hserver.1 hs, hreporting.1 hr, hengine.1 hg, horigins.1 ho⟩
  · rintro ⟨hname, henv, hs, hr, hg, ho⟩
    obtain ⟨n, hn, hname⟩ := Option.bind_eq_some_iff.1 hname
    obtain ⟨e, he, henv⟩ := Option.bind_eq_some_iff.1 henv
    exact ⟨n, hn, _, hname, e, he, _, henv, _, hserver.2 hs, _, hreporting.2 hr, _, hengine.2 hg,
      _, horigins.2 ho, rfl, rfl, rfl, rfl, rfl, rfl⟩

/-! ## When there is a configuration -/

section Readable

variable {α : Type} {default : α} {read : Setting → Option α} {found : Option Setting}

/-- Something is read, or the default taken, exactly if a value that is found can be read. -/
theorem exists_orDefault_iff :
    (∃ a, orDefault default read found = some a)
      ↔ ∀ value, found = some value → (read value).isSome = true := by
  cases found with
  | none => simp [orDefault]
  | some value => simp [orDefault, Option.isSome_iff_exists]

theorem exists_bind_iff (h : found ≠ none) :
    (∃ a, found.bind read = some a)
      ↔ ∀ value, found = some value → (read value).isSome = true := by
  cases found with
  | none => exact absurd rfl h
  | some value => simp [Option.isSome_iff_exists]

end Readable

/-- Settings can be chosen exactly if every value that is found can be read. -/
theorem exists_chosen_iff {look : List String → Option Setting}
    (hserviceName : look ["service_name"] ≠ none) (henvironment : look ["environment"] ≠ none) :
    (∃ c, Chosen look c)
      ↔ ∀ kind ∈ kinds, ∀ value, look kind.1 = some value → kind.2 value = true := by
  simp only [kinds, List.forall_mem_cons, List.not_mem_nil, false_implies, implies_true, and_true]
  constructor
  · rintro ⟨c, hname, henv, ⟨hhost, hport⟩, ⟨hlevel, hformat, henabled, hmetrics⟩,
      ⟨hmode, hstrategy, htraced, hdepth⟩, ⟨hallowed⟩⟩
    exact ⟨(exists_bind_iff hserviceName).1 ⟨_, hname⟩, (exists_bind_iff henvironment).1 ⟨_, henv⟩,
      exists_orDefault_iff.1 ⟨_, hhost⟩, exists_orDefault_iff.1 ⟨_, hport⟩,
      exists_orDefault_iff.1 ⟨_, hlevel⟩, exists_orDefault_iff.1 ⟨_, hformat⟩,
      exists_orDefault_iff.1 ⟨_, henabled⟩, exists_orDefault_iff.1 ⟨_, hmetrics⟩,
      exists_orDefault_iff.1 ⟨_, hmode⟩, exists_orDefault_iff.1 ⟨_, hstrategy⟩,
      exists_orDefault_iff.1 ⟨_, htraced⟩, exists_orDefault_iff.1 ⟨_, hdepth⟩,
      exists_orDefault_iff.1 ⟨_, hallowed⟩⟩
  · rintro ⟨hname, henv, hhost, hport, hlevel, hformat, henabled, hmetrics, hmode, hstrategy,
      htraced, hdepth, hallowed⟩
    obtain ⟨serviceName, hname⟩ := (exists_bind_iff hserviceName).2 hname
    obtain ⟨environment, henv⟩ := (exists_bind_iff henvironment).2 henv
    obtain ⟨host, hhost⟩ := exists_orDefault_iff.2 hhost
    obtain ⟨port, hport⟩ := exists_orDefault_iff.2 hport
    obtain ⟨logLevel, hlevel⟩ := exists_orDefault_iff.2 hlevel
    obtain ⟨logFormat, hformat⟩ := exists_orDefault_iff.2 hformat
    obtain ⟨metricsEnabled, henabled⟩ := exists_orDefault_iff.2 henabled
    obtain ⟨metricsPort, hmetrics⟩ := exists_orDefault_iff.2 hmetrics
    obtain ⟨mode, hmode⟩ := exists_orDefault_iff.2 hmode
    obtain ⟨strategy, hstrategy⟩ := exists_orDefault_iff.2 hstrategy
    obtain ⟨traced, htraced⟩ := exists_orDefault_iff.2 htraced
    obtain ⟨maxDepth, hdepth⟩ := exists_orDefault_iff.2 hdepth
    obtain ⟨allowed, hallowed⟩ := exists_orDefault_iff.2 hallowed
    exact ⟨⟨serviceName, environment, ⟨host, port⟩,
      ⟨logLevel, logFormat, metricsEnabled, metricsPort⟩, ⟨mode, strategy, traced, maxDepth⟩,
      ⟨allowed⟩⟩, hname, henv, ⟨hhost, hport⟩, ⟨hlevel, hformat, henabled, hmetrics⟩,
      ⟨hmode, hstrategy, htraced, hdepth⟩, ⟨hallowed⟩⟩

/-- What is chosen depends on what is found at the paths of the settings alone. -/
theorem Chosen.congr {look other : List String → Option Setting} {c : Config}
    (h : ∀ path ∈ settings, look path = other path) (hc : Chosen look c) : Chosen other c where
  serviceName := h ["service_name"] (by decide) ▸ hc.serviceName
  environment := h ["environment"] (by decide) ▸ hc.environment
  server :=
    ⟨h ["server", "host"] (by decide) ▸ hc.server.host,
     h ["server", "port"] (by decide) ▸ hc.server.port⟩
  reporting :=
    ⟨h ["observability", "log_level"] (by decide) ▸ hc.reporting.logLevel,
     h ["observability", "log_format"] (by decide) ▸ hc.reporting.logFormat,
     h ["observability", "metrics_enabled"] (by decide) ▸ hc.reporting.metricsEnabled,
     h ["observability", "metrics_port"] (by decide) ▸ hc.reporting.metricsPort⟩
  engine :=
    ⟨h ["engine", "parser_mode"] (by decide) ▸ hc.engine.mode,
     h ["engine", "combine_strategy"] (by decide) ▸ hc.engine.strategy,
     h ["engine", "trace_enabled"] (by decide) ▸ hc.engine.traced,
     h ["engine", "max_depth"] (by decide) ▸ hc.engine.maxDepth⟩
  origins := ⟨h ["cors", "allowed_origins"] (by decide) ▸ hc.origins.allowed⟩

end Rulebook.Config
