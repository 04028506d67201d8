import Rulebook.Proofs.Results
import Rulebook.Proofs.SettingVariables

/-!
# The last layer that gives a setting

Layers laid over each other have at each path what the last of them gives there, and a
configuration is chosen from what stands at the paths of its settings. So each setting is taken,
on its own, from the last layer that gives it (`load_takes_last_layer`); only the variable of the
service's own for the port comes after that. The layers must give settings as wholes: where a
layer puts something else in the place of a section, or changes one item of a list, or where the
text of a variable reads as a number, what is loaded is not what the last layer says
(`load_not_last_layer`).
-/

namespace Rulebook.Config

open Setting

/-! ## Layers -/

/-- The configuration of layers has every setting as the last of them gives it. -/
theorem ofLayers?_eq_some_iff {layers : List (List (String × Setting))} {c : Config}
    (hleaves : ∀ layer ∈ layers, ∀ path ∈ settings, layerLeaves path layer = true) :
    ofLayers? layers = some c ↔ Chosen (fun path => lastSome (layerGiven? path) layers) c := by
  have hpath : ∀ path ∈ settings, Clear path (layers.foldl layOver (.table [])) ∧
      (layers.foldl layOver (.table [])).at? path = lastSome (layerGiven? path) layers := by
    intro path hmem
    cases path with
    | nil => exact absurd (length_of_mem_settings [] hmem) (by decide)
    | cons => exact at?_layers fun layer hlayer => hleaves layer hlayer _ hmem
  rw [ofLayers?, ofSetting?_eq_some_iff fun path hmem => (hpath path hmem).1]
  exact ⟨Chosen.congr fun path hmem => (hpath path hmem).2,
    Chosen.congr fun path hmem => (hpath path hmem).2.symm⟩

section Names

variable (service environment : String)

/-- The names that a service is started with are two settings and touch no other. -/
theorem leaves_names : ∀ path ∈ settings, layerLeaves path (names service environment) = true := by
  have hservice : pathOf "service_name" = [.key "service_name"] := by decide +kernel
  have henvironment : pathOf "environment" = [.key "environment"] := by decide +kernel
  simp [settings, kinds, layerLeaves, names, hservice, henvironment, leaves]

theorem given_names :
    layerGiven? ["service_name"] (names service environment) = some (.text service) ∧
      layerGiven? ["environment"] (names service environment) = some (.text environment) := by
  have hservice : pathOf "service_name" = [.key "service_name"] := by decide +kernel
  have henvironment : pathOf "environment" = [.key "environment"] := by decide +kernel
  simp [layerGiven?, names, lastSome_cons, hservice, henvironment, given?]

end Names

/-! ## Loading -/

/-- A configuration with another port, if there is one. -/
def withPort (c : Config) : Option Nat → Config
  | some port => { c with server := { c.server with port } }
  | none => c

section Load

variable {loader : Loader} {service : String} {s : Surroundings}
  {base ofEnvironment ofService : List (String × Setting)}

/-- The layers of a configuration whose files are read, the first one lowest. -/
def layersOf (service : String) (s : Surroundings)
    (base ofEnvironment ofService : List (String × Setting)) : List (List (String × Setting)) :=
  [names service s.environment, base, ofEnvironment, ofService, variableEntries s.vars]

/-- What is loaded is the configuration of the layers, with the port that the variable of the
service's own says. -/
theorem load_eq_ok_iff (hbase : loader.fileLayer s "default" = .ok base)
    (henvironment : loader.fileLayer s s.environment = .ok ofEnvironment)
    (hservice : loader.fileLayer s service = .ok ofService) {c : Config} :
    loader.load service s = .ok c ↔ ∃ chosen,
      ofLayers? (layersOf service s base ofEnvironment ofService) = some chosen ∧
        c = chosen.withPort ((s.vars.lookup (portVariable service)).bind port?) := by
  simp only [Loader.load, hbase, henvironment, hservice, Except.ok_bind, layersOf]
  cases ofLayers? [names service s.environment, base, ofEnvironment, ofService,
      variableEntries s.vars] with
  | none => simp
  | some chosen =>
    cases (s.vars.lookup (portVariable service)).bind port? with
    | none => simp [withPort, eq_comm]
    | some port => simp [withPort, eq_comm]

/-- **Each setting comes from the last layer that gives it.** Let the three files be read and let
all layers give settings as wholes. Then what is loaded has, setting by setting, what the last layer
says that gives the setting, and the built-in value if none does; only the port is then the one of
the service's own variable, if that is a port. Something is loaded exactly if each of those values
can be read as its setting. And a variable gives the setting that it is named for, the last one of
several. -/
theorem load_takes_last_layer (hbase : loader.fileLayer s "default" = .ok base)
    (henvironment : loader.fileLayer s s.environment = .ok ofEnvironment)
    (hservice : loader.fileLayer s service = .ok ofService)
    (hleaves : ∀ layer ∈ [base, ofEnvironment, ofService, variableEntries s.vars],
      ∀ path ∈ settings, layerLeaves path layer = true) :
    let last := fun path =>
      lastSome (layerGiven? path) (layersOf service s base ofEnvironment ofService)
    (∀ c, loader.load service s = .ok c ↔ ∃ chosen, Chosen last chosen ∧
        c = chosen.withPort ((s.vars.lookup (portVariable service)).bind port?)) ∧
      ((∃ c, loader.load service s = .ok c)
        ↔ ∀ kind ∈ kinds, ∀ value, last kind.1 = some value → kind.2 value = true) ∧
      ∀ path ∈ settings, layerGiven? path (variableEntries s.vars)
        = lastSome (fun v => if NamesSetting path v.1 then some (variableValue v.2) else none)
            s.vars := by
  intro last
  have hall : ∀ layer ∈ layersOf service s base ofEnvironment ofService, ∀ path ∈ settings,
      layerLeaves path layer = true :=
    List.forall_mem_cons.2 ⟨leaves_names service s.environment, hleaves⟩
  have hload (c : Config) : loader.load service s = .ok c ↔ ∃ chosen, Chosen last chosen ∧
      c = chosen.withPort ((s.vars.lookup (portVariable service)).bind port?) := by
    simp only [load_eq_ok_iff hbase henvironment hservice, ofLayers?_eq_some_iff hall, last]
  obtain ⟨hname, henv⟩ := given_names service s.environment
  have hfound : last ["service_name"] ≠ none ∧ last ["environment"] ≠ none := by
    simp [last, layersOf, lastSome_cons, hname, henv]
  refine ⟨hload, ?_, fun path hpath => layerGiven?_variableEntries hpath s.vars⟩
  rw [← exists_chosen_iff hfound.1 hfound.2]
  constructor
  · rintro ⟨c, hc⟩
    obtain ⟨chosen, hchosen, -⟩ := (hload c).1 hc
    exact ⟨chosen, hchosen⟩
  · rintro ⟨chosen, hchosen⟩
    exact ⟨_, (hload _).2 ⟨chosen, hchosen, rfl⟩⟩

end Load

/-- Three files that set parts of sections, and variables above them. -/
def threeFiles : Surroundings where
  files :=
    [("default.toml", "[server]\nhost = \"10.0.0.1\"\nport = 3000\n\n[engine]\nmax_depth = 12\n"),
     ("production.toml", "[server]\nport = 4000\n\n[observability]\nlog_level = \"warn\"\n"),
     ("rule-engine.toml", "[engine]\nparser_mode = \"precedence\"\nmax_depth = 30\n")]
  vars :=
    [("RULES_ENV", "production"), ("RULES_ENGINE__MAX_DEPTH", "7"), ("RULE_ENGINE_PORT", "9000")]

theorem load_takes_last_layer_three_files :
    load "rule-engine" threeFiles = .ok
      { serviceName := "rule-engine"
        environment := "production"
        server := { host := "10.0.0.1", port := 9000 }
        reporting := { logLevel := "warn" }
        engine := { mode := "precedence", maxDepth := 7 } } := by
  have hread (name : String)
      (h : (({} : Loader).fileLayer threeFiles name).toOption.isSome = true) :
      ({} : Loader).fileLayer threeFiles name =
        .ok ((({} : Loader).fileLayer threeFiles name).toOption.getD []) := by
    obtain ⟨entries, hentries⟩ := Option.isSome_iff_exists.1 h
    rw [hentries, Option.getD_some]
    exact Except.toOption_eq_some.1 hentries
  have hloads := (load_takes_last_layer (hread "default" (by decide +kernel))
    (hread threeFiles.environment (by decide +kernel)) (hread "rule-engine" (by decide +kernel))
    (by decide +kernel)).1
  refine (hloads _).2 ⟨?chosen, ?_, ?_⟩
  case chosen => exact
    { serviceName := "rule-engine"
      environment := "production"
      server := { host := "10.0.0.1", port := 4000 }
      reporting := { logLevel := "warn" }
      engine := { mode := "precedence", maxDepth := 7 } }
  · decide +kernel
  · decide +kernel

/-- Where the last layer is not what is loaded. A variable's text is read, so that the service is
named `7` and not `007`; a variable in the place of a section leaves no configuration; one item of
a list is changed and the others stay; a file without a name before its ending is not read; and a
file with its ending twice stands in for the one that is not there. -/
theorem load_not_last_layer :
    (∃ c, load "rule-engine" ⟨[], [("RULES_SERVICE_NAME", "007")]⟩ = .ok c ∧
        c.serviceName = "7" ∧ c.serviceName ≠ "007") ∧
      (∀ c, load "rule-engine" ⟨[], [("RULES_SERVER", "x")]⟩ ≠ .ok c) ∧
      (∃ c, load "rule-engine"
          ⟨[("default.toml", "[cors]\nallowed_origins = [\"a\", \"b\"]\n")],
            [("RULES_CORS__ALLOWED_ORIGINS[0]", "z")]⟩ = .ok c ∧ c.origins.allowed = ["z", "b"]) ∧
      (∃ c, load "" ⟨[(".toml", "[server]\nport = 3\n")], []⟩ = .ok c ∧ c.server.port = 8080) ∧
      ∃ c, load "rule-engine" ⟨[("default.toml.toml", "[server]\nport = 3\n")], []⟩ = .ok c ∧
        c.server.port = 3 := by
  have htext : (load "rule-engine" ⟨[], [("RULES_SERVICE_NAME", "007")]⟩).toOption
      = some { serviceName := "7", environment := "development" } := by decide +kernel
  have hsection : load "rule-engine" ⟨[], [("RULES_SERVER", "x")]⟩ = .error .value :=
    failure?_eq_some.1 (by decide +kernel)
  have hitem : (load "rule-engine"
      ⟨[("default.toml", "[cors]\nallowed_origins = [\"a\", \"b\"]\n")],
        [("RULES_CORS__ALLOWED_ORIGINS[0]", "z")]⟩).toOption
      = some
          { serviceName := "rule-engine"
            environment := "development"
            origins := { allowed := ["z", "b"] } } := by decide +kernel
  have hnameless : (load "" ⟨[(".toml", "[server]\nport = 3\n")], []⟩).toOption
      = some { environment := "development" } := by decide +kernel
  have hdoubled : (load "rule-engine"
      ⟨[("default.toml.toml", "[server]\nport = 3\n")], []⟩).toOption
      = some
          { serviceName := "rule-engine"
            environment := "development"
            server := { port := 3 } } := by decide +kernel
  exact ⟨⟨_, Except.toOption_eq_some.1 htext, rfl, by decide⟩, fun c => hsection ▸ nofun,
    ⟨_, Except.toOption_eq_some.1 hitem, rfl⟩, ⟨_, Except.toOption_eq_some.1 hnameless, rfl⟩,
    ⟨_, Except.toOption_eq_some.1 hdoubled, rfl⟩⟩

end Rulebook.Config
