import Rulebook.Proofs.Choosing

/-!
# The variables of settings

A variable for settings is an entry of the layer of variables, and its key is read as a path like
any other. For the settings of a configuration that comes to a simple rule: a variable gives a
setting exactly if its name is that of the setting, case aside (`layerGiven?_variableEntries`). The
key is cut at its dots (`eq_of_pathOf_eq`), the name at its pairs of underscores
(`dotted_eq_append`).
-/

namespace Rulebook

namespace Setting

/-! ## Keys and paths -/

/-- Steps that are all names were written with a dot before each name. -/
theorem eq_of_readSteps_eq {fuel : Nat} {cs : List Char} {names : List String}
    (h : readSteps fuel cs = some (names.map Step.key)) :
    cs = names.flatMap fun name => '.' :: name.toList := by
  induction fuel generalizing cs names with
  | zero =>
    cases cs with
    | nil => cases names <;> simp_all [readSteps]
    | cons c cs => simp [readSteps] at h
  | succ fuel ih =>
    unfold readSteps at h
    split at h
    · cases names <;> simp_all
    · simp_all
    next rest hfuel =>
      obtain rfl := Nat.succ.inj hfuel
      dsimp only at h
      split at h
      · simp at h
      · obtain ⟨steps, hsteps, heq⟩ := Option.map_eq_some_iff.1 h
        cases names with
        | nil => simp at heq
        | cons name names =>
          simp only [List.map_cons, List.cons.injEq, Step.key.injEq] at heq
          obtain ⟨rfl, rfl⟩ := heq
          rw [List.flatMap_cons, ← ih hsteps, String.toList_ofList, List.cons_append,
            List.takeWhile_append_dropWhile]
    next rest hfuel =>
      dsimp only at h
      split at h
      · simp only [Option.ite_none_left_eq_some, Option.map_eq_some_iff] at h
        obtain ⟨-, steps, -, heq⟩ := h
        cases names <;> simp at heq
      · simp at h
    · simp at h

/-- A key whose path is all names is those names with dots between them. -/
theorem eq_of_pathOf_eq {key name : String} {names : List String}
    (h : pathOf key = (name :: names).map Step.key) :
    key.toList = name.toList ++ names.flatMap fun name => '.' :: name.toList := by
  unfold pathOf at h
  dsimp only at h
  split at h
  next steps hsteps =>
    split at hsteps
    · simp at hsteps
    · simp only [List.map_cons, List.cons.injEq, Step.key.injEq] at h
      obtain ⟨rfl, rfl⟩ := h
      rw [← eq_of_readSteps_eq hsteps, String.toList_ofList, List.takeWhile_append_dropWhile]
  next =>
    simp only [List.map_cons, List.cons.injEq, Step.key.injEq] at h
    obtain ⟨rfl, hnil⟩ := h
    cases names <;> simp_all

/-- A value that is no table gives something at the end of its own path alone. -/
theorem given?_eq_ite {path : List String} {steps : List Step} {value : Setting}
    (h : ∀ entries, value ≠ .table entries) :
    given? path steps value = if steps = path.map Step.key then some value else none := by
  induction path generalizing steps with
  | nil => cases steps <;> simp [given?]
  | cons name rest ih =>
    cases steps with
    | nil =>
      cases value with
      | table entries => exact absurd rfl (h entries)
      | _ => simp [given?]
    | cons step steps =>
      cases step with
      | key other =>
        by_cases hname : other = name <;> simp [given?, hname, ih]
      | index => simp [given?]

end Setting

namespace Config

open Setting

/-! ## Names with pairs of underscores -/

theorem eq_of_dotted_eq {cs l : List Char} (h : dotted cs = l) (hdot : '.' ∉ l) : cs = l := by
  induction cs using dotted.induct generalizing l with
  | case1 rest ih => simp [dotted, ← h] at hdot
  | case2 c rest hne ih =>
    rw [dotted] at h
    · subst h
      rw [← ih rfl (fun hmem => hdot (List.mem_cons_of_mem c hmem))]
    · exact hne
  | case3 => exact h

/-- A dot stands where a dot or a pair of underscores stood. -/
theorem dotted_eq_append {cs before after : List Char} (h : dotted cs = before ++ '.' :: after)
    (hdot : '.' ∉ before) :
    ∃ rest, dotted rest = after ∧
      (cs = before ++ '.' :: rest ∨ cs = before ++ '_' :: '_' :: rest) := by
  induction before generalizing cs with
  | nil =>
    induction cs using dotted.induct with
    | case1 rest => exact ⟨rest, by simpa [dotted] using h, .inr rfl⟩
    | case2 c rest hne =>
      rw [dotted] at h
      · obtain ⟨rfl, hafter⟩ := List.cons.inj h
        exact ⟨rest, hafter, .inl rfl⟩
      · exact hne
    | case3 => simp [dotted] at h
  | cons x before ih =>
    obtain ⟨hx, hbefore⟩ := not_or.1 (mt List.mem_cons.2 hdot)
    induction cs using dotted.induct with
    | case1 rest =>
      exact absurd (List.cons.inj h).1 hx
    | case2 c rest hne =>
      rw [dotted] at h
      · obtain ⟨rfl, hrest⟩ := List.cons.inj h
        obtain ⟨more, hmore, hcut⟩ := ih hrest hbefore
        exact ⟨more, hmore, hcut.imp (congrArg (c :: ·)) (congrArg (c :: ·))⟩
      · exact hne
    | case3 => simp [dotted] at h

/-! ## The variable of a setting -/

/-- Whether a variable is the one for a setting. Case aside, its name is `RULES_` and the path of
the setting, with two underscores (or a dot) between a section and a setting of it. -/
def NamesSetting (path : List String) (name : String) : Prop :=
  lower name = "rules_" ++ "__".intercalate path ∨ lower name = "rules_" ++ ".".intercalate path

instance (path : List String) (name : String) : Decidable (NamesSetting path name) :=
  inferInstanceAs (Decidable (_ ∨ _))

theorem variableValue_ne_table (text : String) (entries : List (String × Setting)) :
    variableValue text ≠ .table entries := by
  unfold variableValue
  dsimp only
  repeat' split
  all_goals exact fun h => nomatch h

theorem length_of_mem_settings : ∀ path ∈ settings, path.length = 1 ∨ path.length = 2 := by
  decide

theorem no_dot_of_mem_settings : ∀ path ∈ settings, ∀ name ∈ path, '.' ∉ name.toList := by
  decide +kernel

theorem pathOf_of_mem_settings : ∀ path ∈ settings,
    pathOf (".".intercalate path) = path.map Step.key := by
  decide +kernel

theorem dotted_of_mem_settings : ∀ path ∈ settings,
    dotted ("__".intercalate path).toList = (".".intercalate path).toList ∧
      dotted (".".intercalate path).toList = (".".intercalate path).toList := by
  decide +kernel

/-- A text whose dots are those of a path is the path, with pairs of underscores for some dots. -/
theorem eq_of_pathOf_dotted_eq {path : List String} (hpath : path ∈ settings) {cs : List Char}
    (h : pathOf (String.ofList (dotted cs)) = path.map Step.key) :
    cs = ("__".intercalate path).toList ∨ cs = (".".intercalate path).toList := by
  have hdot := no_dot_of_mem_settings path hpath
  obtain hlength | hlength := length_of_mem_settings path hpath
  · obtain ⟨name, rfl⟩ := List.length_eq_one_iff.1 hlength
    have hcs : _ = name.toList ++ [].flatMap _ := eq_of_pathOf_eq h
    rw [String.toList_ofList, List.flatMap_nil, List.append_nil] at hcs
    exact .inl (eq_of_dotted_eq hcs (hdot name List.mem_cons_self))
  · obtain ⟨title, rest, rfl⟩ := List.exists_cons_of_length_eq_add_one hlength
    obtain ⟨name, rfl⟩ := List.length_eq_one_iff.1 (Nat.succ.inj hlength)
    have hcs : _ = title.toList ++ [name].flatMap _ := eq_of_pathOf_eq h
    rw [String.toList_ofList, List.flatMap_singleton] at hcs
    obtain ⟨rest, hrest, hcut⟩ := dotted_eq_append hcs (hdot title List.mem_cons_self)
    have hname := eq_of_dotted_eq hrest (hdot name (by simp))
    subst hname
    obtain rfl | rfl := hcut
    · have hjoined : ".".intercalate [title, name] = title ++ "." ++ name := rfl
      exact .inr (by simp [hjoined])
    · have hjoined : "__".intercalate [title, name] = title ++ "__" ++ name := rfl
      exact .inl (by simp [hjoined])

theorem lower_eq_iff {name joined : String} :
    lower name = "rules_" ++ joined
      ↔ name.toList.map Char.toLower = variableHead ++ joined.toList := by
  rw [← String.toList_inj, lower, String.toList_ofList, String.toList_append]
  rfl

/-- The key that a variable gives is the path of a setting exactly if the variable is the one for
the setting. -/
theorem names_setting_iff {path : List String} (hpath : path ∈ settings) {name : String}
    (text : String) :
    (∃ entry, variableEntry? name text = some entry ∧ pathOf entry.1 = path.map Step.key)
      ↔ NamesSetting path name := by
  constructor
  · rintro ⟨entry, hentry, hkey⟩
    simp only [Option.ite_none_right_eq_some, Option.some.injEq, variableEntry?] at hentry
    obtain ⟨hhead, rfl⟩ := hentry
    obtain ⟨rest, hrest⟩ := List.isPrefixOf_iff_prefix.1 hhead
    rw [← hrest, List.drop_left] at hkey
    obtain rfl | rfl := eq_of_pathOf_dotted_eq hpath hkey
    · exact .inl (lower_eq_iff.2 hrest.symm)
    · exact .inr (lower_eq_iff.2 hrest.symm)
  · intro h
    obtain ⟨hpairs, hdots⟩ := dotted_of_mem_settings path hpath
    obtain ⟨joined, hname, hjoined⟩ : ∃ joined : String,
        name.toList.map Char.toLower = variableHead ++ joined.toList ∧
          dotted joined.toList = (".".intercalate path).toList :=
      h.elim (fun h => ⟨_, lower_eq_iff.1 h, hpairs⟩) (fun h => ⟨_, lower_eq_iff.1 h, hdots⟩)
    have hhead : variableHead.isPrefixOf (variableHead ++ joined.toList) = true :=
      List.isPrefixOf_iff_prefix.2 (List.prefix_append _ _)
    refine ⟨(".".intercalate path, variableValue text), ?_, pathOf_of_mem_settings path hpath⟩
    simp only [hname, hhead, if_true, List.drop_left, hjoined, String.ofList_toList,
      variableEntry?]

/-- **What variables give.** A setting has from the variables the text of the last one that is
named for it, read as a variable is. -/
theorem layerGiven?_variableEntries {path : List String} (hpath : path ∈ settings)
    (vars : List (String × String)) :
    layerGiven? path (variableEntries vars)
      = lastSome (fun v => if NamesSetting path v.1 then some (variableValue v.2) else none)
          vars := by
  have hentry (v : String × String) :
      (do let entry ← variableEntry? v.1 v.2; given? path (pathOf entry.1) entry.2)
        = if NamesSetting path v.1 then some (variableValue v.2) else none := by
    simp only [← names_setting_iff hpath v.2]
    cases hv : variableEntry? v.1 v.2 with
    | none => simp
    | some entry =>
      simp only [Option.ite_none_right_eq_some, Option.some.injEq, variableEntry?] at hv
      obtain ⟨-, rfl⟩ := hv
      simp [given?_eq_ite (variableValue_ne_table v.2)]
  rw [layerGiven?, variableEntries, lastSome_filterMap]
  exact congrArg (fun g => lastSome g vars) (funext hentry)

example : NamesSetting ["server", "port"] "RULES_SERVER__PORT" ∧
    ¬NamesSetting ["server", "port"] "RULES_SERVER_PORT" := by decide +kernel

end Config

end Rulebook
