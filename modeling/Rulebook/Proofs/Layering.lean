import Rulebook.Config.Setting

/-!
# Trees laid over each other

What stands at a path of names after one tree of settings is laid over another is what the upper
tree gives there, and what stood there before if the upper tree gives nothing. That is so as long
as nothing of a tree gets in the way of the path: no value in the place of a table on the way, no
table at its end (`Setting.leaves`). Each change of a tree is then known by what it gives at the
path (`Covers`), changes one after the other give what the last of them gives, and so do whole
layers of entries (`at?_layers`).
-/

namespace Rulebook

/-- What the last of the members that give something gives. -/
def lastSome {α β : Type} (g : α → Option β) (xs : List α) : Option β := xs.reverse.findSome? g

section LastSome

variable {α β : Type} {g : α → Option β}

@[simp]
theorem lastSome_nil : lastSome g [] = none := rfl

theorem lastSome_append (xs ys : List α) :
    lastSome g (xs ++ ys) = (lastSome g ys).or (lastSome g xs) := by
  rw [lastSome, List.reverse_append, List.findSome?_append, lastSome, lastSome]

theorem lastSome_cons (x : α) (xs : List α) :
    lastSome g (x :: xs) = (lastSome g xs).or (g x) := by
  rw [← List.singleton_append, lastSome_append]
  congr 1
  show [x].findSome? g = g x
  cases h : g x <;> simp [h]

/-- The last member of the last list that has one is the last of all members. -/
theorem lastSome_flatten (lists : List (List α)) :
    lastSome g lists.flatten = lastSome (lastSome g) lists := by
  induction lists with
  | nil => rfl
  | cons xs rest ih => rw [List.flatten_cons, lastSome_append, ih, lastSome_cons]

theorem lastSome_filterMap {γ : Type} (f : γ → Option α) (xs : List γ) :
    lastSome g (xs.filterMap f) = lastSome (fun x => (f x).bind g) xs := by
  induction xs with
  | nil => rfl
  | cons x rest ih =>
    rw [lastSome_cons, ← ih, List.filterMap_cons]
    cases h : f x with
    | none => rw [Option.bind_none, Option.or_none]
    | some a => rw [Option.bind_some, lastSome_cons]

end LastSome

namespace Setting

/-! ## Places -/

/-- What stands at a path of names. -/
def at? : List String → Setting → Option Setting
  | [], value => some value
  | name :: rest, .table entries => (entries.lookup name).bind (at? rest)
  | _ :: _, _ => none

/-- Whether every value on the way to the end of a path is a table. -/
def Clear : List String → Setting → Prop
  | [], _ => True
  | name :: rest, .table entries => ∀ value, entries.lookup name = some value → Clear rest value
  | _ :: _, _ => False

/-- What a value at the end of the steps gives at a path. Where a table has several entries of one
name, the last one counts that gives something. -/
def given? : List String → List Step → Setting → Option Setting
  | [], [], value => some value
  | name :: rest, [], .table entries =>
    lastSome (fun entry => if entry.1 = name then given? rest [] entry.2 else none) entries
  | name :: rest, .key other :: steps, value =>
    if other = name then given? rest steps value else none
  | _, _, _ => none

/-- Whether a value at the end of the steps leaves a path alone or gives one value, no table, at its
end. -/
def leaves : List String → List Step → Setting → Bool
  | [], [], .table _ => false
  | [], [], _ => true
  | name :: rest, [], .table entries =>
    entries.all fun entry => entry.1 != name || leaves rest [] entry.2
  | name :: rest, .key other :: steps, value => other != name || leaves rest steps value
  | _, _, _ => false

/-! ## One change -/

theorem lookup_alter_self (name : String) (f : Setting → Setting)
    (entries : List (String × Setting)) :
    (alter name f entries).lookup name = some (f ((entries.lookup name).getD .absent)) := by
  induction entries with
  | nil => simp [alter]
  | cons entry rest ih =>
    obtain ⟨other, value⟩ := entry
    by_cases h : other = name
    · simp [alter, h]
    · have hne : (name == other) = false := beq_false_of_ne (Ne.symm h)
      simp only [alter, if_neg h, List.lookup_cons, hne, ih]

theorem lookup_alter_of_ne {name other : String} (h : other ≠ name) (f : Setting → Setting)
    (entries : List (String × Setting)) :
    (alter other f entries).lookup name = entries.lookup name := by
  have hne : (name == other) = false := beq_false_of_ne (Ne.symm h)
  induction entries with
  | nil => simp only [alter, List.lookup_cons, hne]
  | cons entry rest ih =>
    obtain ⟨here, value⟩ := entry
    by_cases hhere : here = other
    · simp only [alter, hhere, if_true, List.lookup_cons, hne]
    · simp only [alter, if_neg hhere, List.lookup_cons, ih]

/-- A change of a tree that gives something at a path, or leaves alone what stands there. A place
without a value gets what is given and nothing else. -/
structure Covers (path : List String) (given : Option Setting) (f : Setting → Setting) : Prop where
  clear : ∀ {place}, Clear path place → Clear path (f place)
  at? : ∀ {place}, Clear path place → (f place).at? path = given.or (place.at? path)
  clear_absent : Clear path (f .absent)
  at?_absent : (f .absent).at? path = given

namespace Covers

variable {path rest : List String} {name other : String} {given above : Option Setting}
  {f g : Setting → Setting}

theorem comp (hg : Covers path above g) (hf : Covers path given f) :
    Covers path (above.or given) (g ∘ f) where
  clear h := hg.clear (hf.clear h)
  at? h := by
    rw [Function.comp_apply, hg.at? (hf.clear h), hf.at? h, Option.or_assoc]
  clear_absent := hg.clear hf.clear_absent
  at?_absent := by rw [Function.comp_apply, hg.at? hf.clear_absent, hf.at?_absent]

/-- A change of the entry at the first name of a path. -/
theorem modify_self (h : Covers rest given f) : Covers (name :: rest) given (modify name f) where
  clear {place} hplace := by
    cases place with
    | table entries =>
      intro value hvalue
      rw [lookup_alter_self, Option.some.injEq] at hvalue
      subst hvalue
      cases hlookup : entries.lookup name with
      | none => exact h.clear_absent
      | some value => exact h.clear (hplace value hlookup)
    | _ => exact hplace.elim
  at? {place} hplace := by
    cases place with
    | table entries =>
      simp only [modify, Setting.at?, lookup_alter_self, Option.bind_some]
      cases hlookup : entries.lookup name with
      | none => simp [h.at?_absent]
      | some value => exact h.at? (hplace value hlookup)
    | _ => exact hplace.elim
  clear_absent := by
    intro value hvalue
    rw [List.lookup_cons_self, Option.some.injEq] at hvalue
    exact hvalue ▸ h.clear_absent
  at?_absent := by
    simp only [modify, Setting.at?, List.lookup_cons_self, Option.bind_some, h.at?_absent]

/-- A change of an entry that is not on the path. -/
theorem modify_of_ne (h : other ≠ name) : Covers (name :: rest) none (modify other f) where
  clear {place} hplace := by
    cases place with
    | table entries =>
      intro value hvalue
      exact hplace value (lookup_alter_of_ne h f entries ▸ hvalue)
    | _ => exact hplace.elim
  at? {place} hplace := by
    cases place with
    | table entries => simp only [modify, Setting.at?, lookup_alter_of_ne h, Option.none_or]
    | _ => exact hplace.elim
  clear_absent := by
    intro value hvalue
    simp [List.lookup_cons, beq_false_of_ne (Ne.symm h)] at hvalue
  at?_absent := by
    simp [modify, Setting.at?, List.lookup_cons, beq_false_of_ne (Ne.symm h)]

/-- Making a table where there is none gives nothing. -/
theorem ground : Covers (name :: rest) none Setting.ground where
  clear {place} hplace := by
    cases place with
    | table entries => exact hplace
    | _ => exact hplace.elim
  at? {place} hplace := by
    cases place with
    | table entries => rfl
    | _ => exact hplace.elim
  clear_absent := fun _ hvalue => nomatch hvalue
  at?_absent := rfl

/-- Changes one after the other: what the last one gives that gives something is there. -/
theorem foldl {α : Type} {gives : α → Option Setting} {change : α → Setting → Setting}
    {members : List α} (h : ∀ x ∈ members, Covers path (gives x) (change x))
    (hf : Covers path given f) :
    Covers path ((lastSome gives members).or given)
      (fun place => members.foldl (fun tree x => change x tree) (f place)) := by
  induction members generalizing given f with
  | nil => exact hf
  | cons x rest ih =>
    have hx := (h x List.mem_cons_self).comp hf
    have hrest := ih (fun y hy => h y (List.mem_cons_of_mem x hy)) hx
    rwa [lastSome_cons, Option.or_assoc]

end Covers

/-! ## Values and layers -/

theorem entriesCovering_eq_foldl (entries : List (String × Setting)) (place : Setting) :
    entriesCovering entries place
      = entries.foldl (fun tree entry => modify entry.1 entry.2.covering tree) place := by
  induction entries generalizing place with
  | nil => rfl
  | cons entry rest ih => rw [entriesCovering, ih, List.foldl_cons]

/-- **Laying a value over a tree** gives at a path what the value gives there. The induction is on
the path: the steps to the value and the tables in it are walked along with its names. -/
theorem covers_of_leaves {path : List String} {steps : List Step} {value : Setting}
    (h : leaves path steps value = true) :
    Covers path (given? path steps value) (modifyPath value.covering steps) := by
  induction path generalizing steps value with
  | nil =>
    cases steps with
    | nil =>
      have hcovering : ∀ place, value.covering place = value := by
        cases value with
        | table => exact absurd h Bool.false_ne_true
        | _ => exact fun _ => rfl
      simp only [modifyPath, hcovering]
      exact ⟨fun _ => trivial, fun _ => rfl, trivial, rfl⟩
    | cons => simp [leaves] at h
  | cons name rest ih =>
    cases steps with
    | nil =>
      cases value with
      | table entries =>
        have hentries : ∀ entry ∈ entries,
            Covers (name :: rest) (if entry.1 = name then given? rest [] entry.2 else none)
              (modify entry.1 entry.2.covering) := by
          intro entry hmem
          have hentry := List.all_eq_true.1 h entry hmem
          by_cases hname : entry.1 = name
          · rw [if_pos hname, hname]
            have hrest : leaves rest [] entry.2 = true := by simpa [hname] using hentry
            exact (ih hrest).modify_self
          · rw [if_neg hname]
            exact Covers.modify_of_ne hname
        have hall := Covers.foldl hentries Covers.ground
        rw [Option.or_none] at hall
        simp only [given?, modifyPath, covering, entriesCovering_eq_foldl]
        exact hall
      | _ => simp [leaves] at h
    | cons step steps =>
      cases step with
      | key other =>
        simp only [given?, modifyPath]
        by_cases hname : other = name
        · rw [if_pos hname, hname]
          exact (ih (by simpa [leaves, hname] using h)).modify_self
        · rw [if_neg hname]
          exact Covers.modify_of_ne hname
      | index => simp [leaves] at h

/-- What a layer of entries gives at a path. -/
def layerGiven? (path : List String) (layer : List (String × Setting)) : Option Setting :=
  lastSome (fun entry => given? path (pathOf entry.1) entry.2) layer

/-- Whether each entry of a layer leaves a path alone or gives one value at its end. -/
def layerLeaves (path : List String) (layer : List (String × Setting)) : Bool :=
  layer.all fun entry => leaves path (pathOf entry.1) entry.2

/-- **Layers laid over each other** have at a path what the last layer gives that gives something
there, and tables on the way. -/
theorem at?_layers {name : String} {rest : List String} {layers : List (List (String × Setting))}
    (h : ∀ layer ∈ layers, layerLeaves (name :: rest) layer = true) :
    Clear (name :: rest) (layers.foldl layOver (.table [])) ∧
      (layers.foldl layOver (.table [])).at? (name :: rest)
        = lastSome (layerGiven? (name :: rest)) layers := by
  have hentries : ∀ entry ∈ layers.flatten,
      Covers (name :: rest) (given? (name :: rest) (pathOf entry.1) entry.2)
        (modifyPath entry.2.covering (pathOf entry.1)) := by
    intro entry hmem
    obtain ⟨layer, hlayer, hentry⟩ := List.mem_flatten.1 hmem
    exact covers_of_leaves (List.all_eq_true.1 (h layer hlayer) entry hentry)
  have hall := Covers.foldl hentries Covers.ground
  have hgiven : lastSome (fun entry => given? (name :: rest) (pathOf entry.1) entry.2)
      layers.flatten = lastSome (layerGiven? (name :: rest)) layers := lastSome_flatten layers
  have htree : layers.foldl layOver (.table [])
      = layers.flatten.foldl (fun tree entry => modifyPath entry.2.covering (pathOf entry.1) tree)
          (.table []) := List.foldl_flatten.symm
  rw [htree, ← hgiven]
  exact ⟨hall.clear_absent, hall.at?_absent.trans Option.or_none⟩

end Setting

end Rulebook
