import SearchBox.Proofs.Search
import SearchBox.Proofs.Store
import SearchBox.Session

/-!
# The settings in force

Steps of a session change the tree at will and save settings that may be unacceptable.  This file
shows what that can do to searches: nothing.

* `step_cases` — only a load that succeeds changes the settings in force, and only such a load is
  answered by settings that were loaded;
* `validate_step` — the settings that it gives are accepted;
* `settings_after` — so the settings in force are always accepted ones, namely those of the last
  load that succeeded, and every search is answered from them alone.

That a load succeeds is said of the tree that it meets (`Step.LoadsFrom`), not of its answer; what
the answers tell about it is a theorem.
-/

namespace SearchBox
namespace Session

variable {s : Session}

/-! ## Answers that change the settings -/

/-- The settings that an answer puts in force. -/
def Answer.loaded? : Answer → Option Settings
  | .loaded result _ => some result.settings
  | _ => none

/-- The settings in force after some answers: those of the last load that succeeded. -/
def inForce (initial : Settings) (answers : List Answer) : Settings :=
  (answers.filterMap Answer.loaded?).getLast?.getD initial

theorem inForce_cons (initial : Settings) (a : Answer) (answers : List Answer) :
    inForce initial (a :: answers) = inForce (a.loaded?.getD initial) answers := by
  unfold inForce
  cases h : a.loaded? with
  | none => rw [List.filterMap_cons_none h, Option.getD_none]
  | some u => rw [List.filterMap_cons_some h, List.getLast?_cons, Option.getD_some, Option.getD_some]

/-- Answers of which none is to a successful load leave the settings as they are. -/
theorem inForce_of_loaded?_eq_none {answers : List Answer} (h : ∀ a ∈ answers, a.loaded? = none)
    (initial : Settings) : inForce initial answers = initial := by
  have hnil : answers.filterMap Answer.loaded? = [] := List.filterMap_eq_nil_iff.2 h
  rw [inForce, hnil]
  rfl

/-! ## Loads that succeed -/

/-- A step, taken in a tree, is a load that succeeds. -/
def Step.LoadsFrom (tree : FileTree) (x : Step) (l : Settings.Loaded) : Prop :=
  ∃ base tree', x = .load base ∧ Settings.load base tree = (.ok l, tree')

/-- No step is a load that succeeds, each one taken where those before it have led. -/
def LoadsNothing (s : Session) : List Step → Prop
  | [] => True
  | x :: xs => (∀ l, ¬ x.LoadsFrom s.tree l) ∧ (s.step x).2.LoadsNothing xs

theorem Step.LoadsFrom.unique {tree : FileTree} {x : Step} {l l' : Settings.Loaded}
    (h : x.LoadsFrom tree l) (h' : x.LoadsFrom tree l') : l = l' := by
  obtain ⟨base, _, rfl, hload⟩ := h
  obtain ⟨_, _, hbase, hload'⟩ := h'
  cases hbase
  rw [hload] at hload'
  cases hload'
  rfl

/-- Steps of another kind load nothing. -/
theorem Step.not_loadsFrom {tree : FileTree} {x : Step} (h : ∀ base, x ≠ .load base)
    (l : Settings.Loaded) : ¬ x.LoadsFrom tree l := by
  rintro ⟨base, _, rfl, _⟩
  exact h base rfl

/-- A load that fails loads nothing. -/
theorem Step.not_loadsFrom_of_error {tree tree' : FileTree} {base : Location} {e : Settings.Error}
    (h : Settings.load base tree = (.error e, tree')) (l : Settings.Loaded) :
    ¬ Step.LoadsFrom tree (.load base) l := by
  rintro ⟨_, _, hbase, hload⟩
  cases hbase
  rw [h] at hload
  cases hload

/-! ## One step -/

theorem change_settings (s : Session) (result : FileTree × Bool) :
    (s.change result).1.loaded? = none ∧ (s.change result).2.settings = s.settings := by
  obtain ⟨tree, _ | _⟩ := result
  · exact ⟨rfl, rfl⟩
  · exact ⟨rfl, rfl⟩

/-- A step leaves the settings in force as they are, or it is a load that succeeds. -/
theorem step_cases (s : Session) (x : Step) :
    (∀ l, ¬ x.LoadsFrom s.tree l) ∧ (s.step x).1.loaded? = none
        ∧ (s.step x).2.settings = s.settings
      ∨ ∃ l file, x.LoadsFrom s.tree l ∧ (s.step x).1 = .loaded l file
          ∧ (s.step x).2.settings = l.settings := by
  cases x with
  | write route content => exact Or.inl ⟨Step.not_loadsFrom nofun, s.change_settings _⟩
  | createDir route => exact Or.inl ⟨Step.not_loadsFrom nofun, s.change_settings _⟩
  | remove route => exact Or.inl ⟨Step.not_loadsFrom nofun, s.change_settings _⟩
  | look route => exact Or.inl ⟨Step.not_loadsFrom nofun, rfl, rfl⟩
  | load base =>
      cases h : Settings.load base s.tree with
      | mk result tree =>
          cases result with
          | error e =>
              exact Or.inl ⟨Step.not_loadsFrom_of_error h, by simp [step, h, Answer.loaded?]⟩
          | ok l =>
              exact Or.inr ⟨l, tree.state (Settings.fileIn base).route, ⟨base, tree, rfl, h⟩,
                by simp [step, h], by simp [step, h]⟩
  | save base u =>
      refine Or.inl ⟨Step.not_loadsFrom nofun, ?_⟩
      cases h : u.save base s.tree with
      | mk result tree => cases result <;> simp [step, h, Answer.loaded?]
  | current => exact Or.inl ⟨Step.not_loadsFrom nofun, rfl, rfl⟩
  | search field text => exact Or.inl ⟨Step.not_loadsFrom nofun, rfl, rfl⟩

/-- Loaded settings are the answer exactly to a load that succeeds with them. -/
theorem answer_step_iff (s : Session) (x : Step) (l : Settings.Loaded) :
    (∃ file, (s.step x).1 = .loaded l file) ↔ x.LoadsFrom s.tree l := by
  rcases s.step_cases x with ⟨hnot, hnone, _⟩ | ⟨l', file', hloads, hanswer, _⟩
  · constructor
    · rintro ⟨file, hanswer⟩
      rw [hanswer] at hnone
      cases hnone
    · intro hloads
      exact absurd hloads (hnot l)
  · constructor
    · rintro ⟨file, hanswer'⟩
      rw [hanswer] at hanswer'
      cases hanswer'
      exact hloads
    · intro hloads'
      cases hloads.unique hloads'
      exact ⟨file', hanswer⟩

theorem step_settings_of_loadsFrom {x : Step} {l : Settings.Loaded} (h : x.LoadsFrom s.tree l) :
    (s.step x).2.settings = l.settings := by
  rcases s.step_cases x with ⟨hnot, _⟩ | ⟨l', _, hloads, _, hsettings⟩
  · exact absurd h (hnot l)
  · rw [hsettings, hloads.unique h]

/-- A step leaves the settings in force that its answer gives, or else those that were. -/
theorem step_settings (s : Session) (x : Step) :
    (s.step x).2.settings = (s.step x).1.loaded?.getD s.settings := by
  rcases s.step_cases x with ⟨_, hnone, hsettings⟩ | ⟨_, _, _, hanswer, hsettings⟩
  · rw [hnone, hsettings]
    rfl
  · rw [hanswer, hsettings]
    rfl

/-- Only accepted settings are put in force. -/
theorem validate_step (h : s.settings.validate = .ok ()) (x : Step) :
    (s.step x).2.settings.validate = .ok () := by
  rcases s.step_cases x with ⟨_, _, hsettings⟩ | ⟨_, _, ⟨_, _, _, hload⟩, _, hsettings⟩
  · rw [hsettings]
    exact h
  · rw [hsettings]
    exact Settings.validate_of_load hload

/-! ## Runs -/

theorem run_cons (s : Session) (x : Step) (xs : List Step) :
    s.run (x :: xs) = ((s.step x).1 :: ((s.step x).2.run xs).1, ((s.step x).2.run xs).2) := rfl

theorem run_append (s : Session) (xs ys : List Step) :
    s.run (xs ++ ys)
      = ((s.run xs).1 ++ ((s.run xs).2.run ys).1, ((s.run xs).2.run ys).2) := by
  induction xs generalizing s with
  | nil => rfl
  | cons x xs ih => rw [List.cons_append, run_cons, ih, run_cons, List.cons_append]

theorem length_run (s : Session) (xs : List Step) : (s.run xs).1.length = xs.length := by
  induction xs generalizing s with
  | nil => rfl
  | cons x xs ih => rw [run_cons, List.length_cons, ih, List.length_cons]

theorem run_settings (s : Session) (xs : List Step) :
    (s.run xs).2.settings = inForce s.settings (s.run xs).1 := by
  induction xs generalizing s with
  | nil => rfl
  | cons x xs ih => rw [run_cons, ih, inForce_cons, step_settings]

theorem validate_run (h : s.settings.validate = .ok ()) (xs : List Step) :
    (s.run xs).2.settings.validate = .ok () := by
  induction xs generalizing s with
  | nil => exact h
  | cons x xs ih => exact ih (validate_step h x)

/-- Steps of which none is a load that succeeds leave the settings as they are. -/
theorem LoadsNothing.run_settings {xs : List Step} (h : s.LoadsNothing xs) :
    (s.run xs).2.settings = s.settings := by
  induction xs generalizing s with
  | nil => rfl
  | cons x xs ih =>
      obtain ⟨hnot, hrest⟩ := h
      rw [run_cons, ih hrest]
      rcases s.step_cases x with ⟨_, _, hsettings⟩ | ⟨l, _, hloads, _⟩
      · exact hsettings
      · exact absurd hloads (hnot l)

/-- The answer to a step of a run is given where the steps before it have led. -/
theorem run_getElem? (s : Session) (before : List Step) (x : Step) (rest : List Step) :
    (s.run (before ++ x :: rest)).1[before.length]? = some ((s.run before).2.step x).1 := by
  rw [run_append, ← s.length_run before, List.getElem?_append_right (Nat.le_refl _), Nat.sub_self,
    run_cons]
  rfl

theorem answer_run_iff (s : Session) (before : List Step) (x : Step) (rest : List Step)
    (l : Settings.Loaded) :
    (∃ file, (s.run (before ++ x :: rest)).1[before.length]? = some (.loaded l file))
      ↔ x.LoadsFrom (s.run before).2.tree l := by
  rw [← answer_step_iff, run_getElem?]
  simp only [Option.some.injEq]

/-- The settings are those of a load that succeeds, if none after it does. -/
theorem run_settings_of_loadsFrom {before : List Step} {x : Step} {rest : List Step}
    {l : Settings.Loaded} (hloads : x.LoadsFrom (s.run before).2.tree l)
    (hrest : ((s.run before).2.step x).2.LoadsNothing rest) :
    (s.run (before ++ x :: rest)).2.settings = l.settings := by
  rw [run_append, run_cons, hrest.run_settings, step_settings_of_loadsFrom hloads]

/-- A search in a run is answered from the settings in force at that time. -/
theorem run_search (s : Session) (before after : List Step) (field : Option String)
    (text : String) :
    (s.run (before ++ .search field text :: after)).1[before.length]?
      = some (.query ((inForce s.settings (s.run before).1).query
          ((inForce s.settings (s.run before).1).fieldFor field) text)) := by
  rw [run_getElem?, ← run_settings]
  rfl

/-! ## Sessions with the default settings at first -/

/-- The answers to steps that begin with a tree and the default settings. -/
def answers (tree : FileTree) (steps : List Step) : List Answer :=
  (run { tree := tree } steps).1

/-- The session after such steps. -/
def after (tree : FileTree) (steps : List Step) : Session :=
  (run { tree := tree } steps).2

/-- After any steps in any tree, the settings in force are those of the last load that succeeded, or
the default ones, and they are accepted: the field is not blank, and an operator is allowed.  Steps
that load nothing leave them as they are.  Every search on the way is answered from its text, its
field and the settings in force alone, and a text with one operator at most is never searched for as
it stands.

A step is answered by loaded settings exactly if it is a load that succeeds with them on the tree as
the steps before it left it. -/
theorem settings_after (tree : FileTree) (steps : List Step) :
    (after tree steps).settings = inForce {} (answers tree steps)
      ∧ (∀ before x rest l, steps = before ++ x :: rest →
          ((∃ file, (answers tree steps)[before.length]? = some (.loaded l file))
            ↔ x.LoadsFrom (after tree before).tree l))
      ∧ (∀ before x rest l, steps = before ++ x :: rest → x.LoadsFrom (after tree before).tree l →
          (after tree (before ++ [x])).LoadsNothing rest →
            (after tree steps).settings = l.settings)
      ∧ (LoadsNothing { tree := tree } steps → (after tree steps).settings = {})
      ∧ (after tree steps).settings.validate = .ok ()
      ∧ (∃ c ∈ (after tree steps).settings.defaultField.toList, Text.isWhiteSpace c = false)
      ∧ 1 ≤ (after tree steps).settings.maxOperators.toNat
      ∧ (∀ more, (∀ a ∈ ((after tree steps).run more).1, a.loaded? = none) →
          (after tree (steps ++ more)).settings = (after tree steps).settings)
      ∧ (∀ before field text rest, steps = before ++ .search field text :: rest →
          (answers tree steps)[before.length]?
            = some (.query ((inForce {} (answers tree before)).query
                ((inForce {} (answers tree before)).fieldFor field) text)))
      ∧ ∀ field text, Settings.operatorsIn text ≤ 1 →
          ∃ clauses, (after tree steps).settings.clauses field text = .ok clauses
            ∧ (after tree steps).settings.query field text = .ofClauses field clauses := by
  have hvalid : (after tree steps).settings.validate = .ok () :=
    validate_run (s := { tree := tree }) Settings.validate_default steps
  obtain ⟨hfield, hlimit⟩ := (Settings.validate_eq_ok_iff _).1 hvalid
  refine ⟨run_settings _ steps, ?_, ?_, fun h => h.run_settings, hvalid, hfield, hlimit, ?_, ?_, ?_⟩
  · rintro before x rest l rfl
    exact answer_run_iff _ before x rest l
  · rintro before x rest l rfl hloads hrest
    rw [after, run_append] at hrest
    exact run_settings_of_loadsFrom hloads hrest
  · intro more hmore
    have hkeep := inForce_of_loaded?_eq_none hmore (after tree steps).settings
    rw [after, run_append]
    exact (run_settings _ more).trans hkeep
  · rintro before field text rest rfl
    exact run_search _ before rest field text
  · intro field text hone
    have hle := Nat.le_trans hone hlimit
    exact ⟨_, Settings.clauses_of_operatorsIn_le field hle, Settings.query_of_operatorsIn_le field hle⟩

/-- Settings that were loaded stay in force when unacceptable ones are saved over them and the next
load fails.  They allow one operator, so a text with two is searched for as it stands. -/
theorem settings_after_failed_load :
    let tree : FileTree :=
      .dir [("root", .dir [("search.yaml", .file (Settings.toText ⟨"body", 1⟩).toUTF8)])]
    Step.LoadsFrom tree (.load Location.root) ⟨⟨"body", 1⟩, false⟩
      ∧ (after tree [.load Location.root]).LoadsNothing
          [.save Location.root ⟨" ", 1⟩, .load Location.root]
      ∧ (after tree [.load Location.root, .save Location.root ⟨" ", 1⟩, .load Location.root]).settings
        = ⟨"body", 1⟩
      ∧ (answers tree [.load Location.root, .save Location.root ⟨" ", 1⟩, .load Location.root,
          .search none "a AND b AND c"])[3]? = some (.query (.term "body" "a AND b AND c")) := by
  intro tree
  have hbase : Location.root.IsPlain := ⟨by decide, by decide⟩
  have hnul : FileTree.NulFree Location.root.route := by decide
  have hfile : tree.shapeAt? (Settings.fileIn Location.root).path
      = some (.file (Settings.toText ⟨"body", 1⟩).toUTF8) := rfl
  have hload : Settings.load Location.root tree = (.ok ⟨⟨"body", 1⟩, false⟩, tree) :=
    Settings.load_of_toText hbase hnul hfile rfl
  have hloads : Step.LoadsFrom tree (.load Location.root) ⟨⟨"body", 1⟩, false⟩ :=
    ⟨_, _, rfl, hload⟩
  have hafter : after tree [.load Location.root] = { tree := tree, settings := ⟨"body", 1⟩ } := by
    simp [after, run, step, hload]
  -- What is saved over them is text, but no settings are read from it.
  obtain ⟨tree', hsave, hwrites⟩ :=
    Settings.exists_save hbase hnul ⟨" ", 1⟩ (by rw [hfile]; nofun) rfl
  have hfails : Settings.load Location.root tree' = (.error .blankField, tree') :=
    Settings.load_of_refused hbase hnul hwrites.shapeAt?_self (Settings.ofText_eq_checked _)
  have hnothing : (after tree [.load Location.root]).LoadsNothing
      [.save Location.root ⟨" ", 1⟩, .load Location.root] := by
    have htree : (Session.step ⟨tree, ⟨"body", 1⟩⟩ (.save Location.root ⟨" ", 1⟩)).2.tree = tree' := by
      simp [step, hsave]
    rw [hafter]
    refine ⟨Step.not_loadsFrom nofun, ?_, trivial⟩
    rw [htree]
    exact Step.not_loadsFrom_of_error hfails
  have hrun := settings_after tree
    [.load Location.root, .save Location.root ⟨" ", 1⟩, .load Location.root]
  have hsettings := hrun.2.2.1 [] _ _ _ rfl hloads hnothing
  refine ⟨hloads, hnothing, hsettings, ?_⟩
  obtain ⟨_, _, _, _, _, _, _, _, hsearch, _⟩ := settings_after tree
    [.load Location.root, .save Location.root ⟨" ", 1⟩, .load Location.root,
      .search none "a AND b AND c"]
  have hanswer := hsearch [.load Location.root, .save Location.root ⟨" ", 1⟩, .load Location.root]
    none "a AND b AND c" [] rfl
  rw [← hrun.1, hsettings] at hanswer
  rw [← Settings.query_of_lt_operatorsIn (s := ⟨"body", 1⟩) "body" (by decide)]
  exact hanswer

end Session
end SearchBox
