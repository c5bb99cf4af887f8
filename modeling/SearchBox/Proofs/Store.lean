import SearchBox.Proofs.Route
import SearchBox.Proofs.Settings
import SearchBox.Settings.Store

/-!
# Settings in a file tree

Settings are loaded from a directory that is named by plain components.  This file says once what a
load can do, and derives the rest:

* `Loads` and `load_cases` — the ways a load can end, each with the tree it leaves;
* `load_normalizes` — when a load succeeds, with which settings, and what it writes; a second one
  changes nothing;
* `load_of_obstacle`, `save_error_iff` — when loading and saving fail, and that the tree is then what
  it was.

Trees are compared by what stands at each path.  Components that are dots are left out, since with
them a failure may leave directories behind.
-/

namespace SearchBox

open FileTree

/-- A location whose components are plain, and below which the route to the file of the settings is
not too long. -/
structure Location.IsPlain (l : Location) : Prop where
  plain : ∀ c ∈ l.route, FileTree.IsPlain c
  length_le : routeLength (Settings.fileIn l).route ≤ maxRouteLength

/-- The names that lead to a location. -/
def Location.path (l : Location) : Path :=
  Route.names l.route

namespace Settings

variable {base : Location} {t t' : FileTree} {s : Settings} {text : String} {e : Error}

/-! ## The file of the settings -/

theorem isPlain_fileName : FileTree.IsPlain fileName := by
  decide

theorem path_fileIn (base : Location) : (fileIn base).path = base.path ++ [fileName] := by
  simp [Location.path, fileIn, Location.entry, Route.names, fileName]

theorem isAdmissible_fileIn (hbase : base.IsPlain) (hnul : NulFree base.route) :
    isAdmissible (base.route ++ [fileName]) = true := by
  refine isAdmissible_iff.2 ⟨?_, hbase.length_le⟩
  intro c hc
  rcases List.mem_append.1 hc with hc | hc
  · exact hnul c hc
  · rw [List.mem_singleton.1 hc]
    decide

theorem isAdmissible_base (hbase : base.IsPlain) (hnul : NulFree base.route) :
    isAdmissible base.route = true := by
  refine isAdmissible_iff.2 ⟨hnul, ?_⟩
  have hlength := hbase.length_le
  rw [fileIn, Location.entry, routeLength_append] at hlength
  omega

theorem look_fileIn (hbase : base.IsPlain) (hnul : NulFree base.route) (t : FileTree) :
    t.look (fileIn base).route = t.get? (fileIn base).path := by
  rw [path_fileIn]
  exact look_concat hbase.plain isPlain_fileName (by decide) (isAdmissible_fileIn hbase hnul) t

theorem write_fileIn (hbase : base.IsPlain) (hnul : NulFree base.route) (t : FileTree)
    (content : ByteArray) :
    t.write content (fileIn base).route = t.writeFile content (fileIn base).path := by
  rw [path_fileIn]
  exact write_concat hbase.plain isPlain_fileName (by decide) (isAdmissible_fileIn hbase hnul) t
    content

theorem not_nulFree_fileIn (h : ¬ NulFree base.route) : ¬ NulFree (fileIn base).route :=
  fun hnul => h fun c hc => hnul c (List.mem_append_left _ hc)

/-! ## Saving -/

/-- Settings are not saved where there is no directory for them, nor in place of a directory. -/
theorem save_eq_error (hbase : base.IsPlain) (hnul : NulFree base.route) (s : Settings)
    (h : t.shapeAt? (fileIn base).path = some .dir ∨ t.shapeAt? base.path ≠ some .dir) :
    save s base t = (.error (.cannotWrite (fileIn base).shown), t) := by
  have hnone : t.writeFile s.toText.toUTF8 (fileIn base).path = none := by
    rw [path_fileIn] at h ⊢
    exact writeFile_eq_none_iff.2 h
  rw [save, write_fileIn hbase hnul, hnone]

/-- Saving changes the file of the settings only. -/
theorem exists_save (hbase : base.IsPlain) (hnul : NulFree base.route) (s : Settings)
    (hfile : t.shapeAt? (fileIn base).path ≠ some .dir) (hdir : t.shapeAt? base.path = some .dir) :
    ∃ t', save s base t = (.ok (), t') ∧ t.WritesFile (fileIn base).path s.toText.toUTF8 t' := by
  cases hwrite : t.writeFile s.toText.toUTF8 (fileIn base).path with
  | none =>
      rw [path_fileIn] at hwrite hfile
      rcases writeFile_eq_none_iff.1 hwrite with h | h
      · exact absurd h hfile
      · exact absurd hdir h
  | some t' =>
      refine ⟨t', ?_, writesFile_of_writeFile hwrite⟩
      rw [save, write_fileIn hbase hnul, hwrite]

theorem save_of_not_nulFree (h : ¬ NulFree base.route) (s : Settings) (t : FileTree) :
    save s base t = (.error (.cannotWrite (fileIn base).shown), t) := by
  have hwrite : t.write s.toText.toUTF8 (fileIn base).route = none := by
    rw [write, follow_of_not_nulFree (not_nulFree_fileIn h)]
    rfl
  rw [save, hwrite]

/-- Settings cannot be saved exactly where there is no directory for them, or a directory stands in
place of their file. -/
theorem save_error_iff (hbase : base.IsPlain) (s : Settings) :
    save s base t = (.error e, t')
      ↔ t' = t ∧ e = .cannotWrite (fileIn base).shown
        ∧ (¬ NulFree base.route ∨ t.shapeAt? (fileIn base).path = some .dir
          ∨ t.shapeAt? base.path ≠ some .dir) := by
  by_cases hfails : ¬ NulFree base.route ∨ t.shapeAt? (fileIn base).path = some .dir
      ∨ t.shapeAt? base.path ≠ some .dir
  · have hsave : save s base t = (.error (.cannotWrite (fileIn base).shown), t) := by
      by_cases hnul : NulFree base.route
      · exact save_eq_error hbase hnul s (hfails.resolve_left fun h => h hnul)
      · exact save_of_not_nulFree hnul s t
    rw [hsave]
    constructor
    · intro h
      cases h
      exact ⟨rfl, rfl, hfails⟩
    · rintro ⟨rfl, rfl, _⟩
      rfl
  · simp only [not_or, Classical.not_not] at hfails
    obtain ⟨t₁, hsave, _⟩ := exists_save hbase hfails.1 s hfails.2.1 hfails.2.2
    rw [hsave]
    constructor
    · intro h
      cases h
    · rintro ⟨_, _, h⟩
      simp [hfails] at h

/-! ## Loading, one case after the other -/

theorem load_of_not_nulFree (h : ¬ NulFree base.route) (t : FileTree) :
    load base t = (.error (.cannotCreate base.shown), t) := by
  have hlook : t.look (fileIn base).route = none := by
    rw [look, follow_of_not_nulFree (not_nulFree_fileIn h)]
    rfl
  have hcreate : t.createDirs base.route = (t, false) := by
    rw [createDirs, if_neg]
    exact fun hadm => h (isAdmissible_iff.1 hadm).1
  simp [load, provide, hlook, hcreate]

/-- A file that is there is read back. -/
theorem load_of_shapeAt? {sh : Shape} (hbase : base.IsPlain) (hnul : NulFree base.route)
    (h : t.shapeAt? (fileIn base).path = some sh) : load base t = readBack base t := by
  cases hget : t.get? (fileIn base).path with
  | none => simp [shapeAt?, hget] at h
  | some u => simp [load, provide, look_fileIn hbase hnul, hget]

theorem load_of_not_text {sh : Shape} (hbase : base.IsPlain) (hnul : NulFree base.route)
    (h : t.shapeAt? (fileIn base).path = some sh) (hsh : ∀ text : String, sh ≠ .file text.toUTF8) :
    load base t = (.error (.cannotRead (fileIn base).shown), t) := by
  have hread : (t.get? (fileIn base).path).bind FileTree.text? = none := by
    rw [Option.eq_none_iff_forall_ne_some]
    intro text htext
    rw [bind_text?_eq_some_iff, h] at htext
    exact hsh text (Option.some.inj htext)
  rw [load_of_shapeAt? hbase hnul h, readBack, look_fileIn hbase hnul, hread]

theorem text?_fileIn (hbase : base.IsPlain) (hnul : NulFree base.route)
    (h : t.shapeAt? (fileIn base).path = some (.file text.toUTF8)) :
    (t.look (fileIn base).route).bind FileTree.text? = some text := by
  rw [look_fileIn hbase hnul, bind_text?_eq_some_iff.2 h]

theorem load_of_refused (hbase : base.IsPlain) (hnul : NulFree base.route)
    (h : t.shapeAt? (fileIn base).path = some (.file text.toUTF8)) (hread : ofText text = .error e) :
    load base t = (.error e, t) := by
  rw [load_of_shapeAt? hbase hnul h]
  simp [readBack, text?_fileIn hbase hnul h, hread]

/-- The text that accepted settings are saved with is left as it is. -/
theorem load_of_toText (hbase : base.IsPlain) (hnul : NulFree base.route)
    (h : t.shapeAt? (fileIn base).path = some (.file s.toText.toUTF8))
    (hvalid : validate s = .ok ()) : load base t = (.ok ⟨s, false⟩, t) := by
  rw [load_of_shapeAt? hbase hnul h]
  simp [readBack, text?_fileIn hbase hnul h, ofText_of_validate hvalid]

/-- An accepted text of another form is written again. -/
theorem load_of_other_text (hbase : base.IsPlain) (hnul : NulFree base.route)
    (h : t.shapeAt? (fileIn base).path = some (.file text.toUTF8)) (hread : ofText text = .ok s)
    (hne : text ≠ s.toText) :
    ∃ t', load base t = (.ok ⟨s, true⟩, t')
      ∧ t.WritesFile (fileIn base).path s.toText.toUTF8 t' := by
  -- The file stands in the directory, so it can be written.
  have hdir : t.shapeAt? base.path = some .dir := by
    rw [path_fileIn] at h
    exact shapeAt?_of_append h
  obtain ⟨t', hsave, hwrites⟩ := exists_save hbase hnul s (by rw [h]; simp) hdir
  refine ⟨t', ?_, hwrites⟩
  rw [load_of_shapeAt? hbase hnul h]
  simp [readBack, text?_fileIn hbase hnul h, hread, hne, hsave]

theorem shapeAt?_fileIn_of_not_dir (h : t.shapeAt? base.path ≠ some .dir) :
    t.shapeAt? (fileIn base).path = none := by
  rw [path_fileIn]
  cases hfile : t.shapeAt? (base.path ++ [fileName]) with
  | none => rfl
  | some sh => exact absurd (shapeAt?_of_append hfile) h

/-- A file in the way keeps the directory from being created. -/
theorem load_of_blocked (hbase : base.IsPlain) (hnul : NulFree base.route)
    (h : ¬ t.FreeOfFiles base.path) : load base t = (.error (.cannotCreate base.shown), t) := by
  have hfile : t.shapeAt? (fileIn base).path = none :=
    shapeAt?_fileIn_of_not_dir fun hdir => h (freeOfFiles_of_dir hdir)
  rcases createDirs_cases hbase.plain (isAdmissible_base hbase hnul) t with
    ⟨t', _, hfree, _⟩ | ⟨hcreate, _⟩
  · exact absurd hfree h
  · simp [load, provide, look_fileIn hbase hnul, shapeAt?_eq_none_iff.1 hfile, hcreate]

/-- Where nothing is in the way, a missing file is created with the default settings, and the
directories that it needs before it. -/
theorem load_of_missing (hbase : base.IsPlain) (hnul : NulFree base.route)
    (h : t.shapeAt? (fileIn base).path = none) (hfree : t.FreeOfFiles base.path) :
    ∃ t₁ t', load base t = (.ok ⟨{}, false⟩, t') ∧ t.CreatesDirs base.path t₁
      ∧ t₁.WritesFile (fileIn base).path (toText {}).toUTF8 t' := by
  rcases createDirs_cases hbase.plain (isAdmissible_base hbase hnul) t with
    ⟨t₁, hcreate, _, hdirs⟩ | ⟨_, hblocked⟩
  · have hdir : t₁.shapeAt? base.path = some .dir := by
      rw [hdirs, Location.path, if_pos (List.prefix_refl _)]
    have hfile : t₁.shapeAt? (fileIn base).path ≠ some .dir := by
      have hlong : ¬ (fileIn base).path <+: Route.names base.route := by
        intro hle
        have hlength := hle.length_le
        rw [path_fileIn, Location.path, List.length_append, List.length_singleton] at hlength
        omega
      rw [hdirs, if_neg hlong, h]
      simp
    obtain ⟨t', hsave, hwrites⟩ := exists_save hbase hnul {} hfile hdir
    refine ⟨t₁, t', ?_, hdirs, hwrites⟩
    -- What was written is read back as a file that was there all along.
    have hback : readBack base t' = (.ok ⟨{}, false⟩, t') := by
      rw [← load_of_shapeAt? hbase hnul hwrites.shapeAt?_self]
      exact load_of_toText hbase hnul hwrites.shapeAt?_self validate_default
    simp [load, provide, look_fileIn hbase hnul, shapeAt?_eq_none_iff.1 h, hcreate, hsave, hback]
  · exact absurd hfree hblocked

/-- Whatever the directory is, only accepted settings are loaded from it. -/
theorem validate_of_load {l : Loaded} (h : load base t = (.ok l, t')) :
    validate l.settings = .ok () := by
  have hback : ∀ t₁, readBack base t₁ = (.ok l, t') → validate l.settings = .ok () := by
    intro t₁ hread
    unfold readBack at hread
    split at hread
    · cases hread
    · split at hread
      · cases hread
      · rename_i hok
        split at hread
        · cases hread
          exact validate_of_ofText hok
        · split at hread
          · cases hread
            exact validate_of_ofText hok
          · cases hread
  unfold load at h
  split at h
  · cases h
  · exact hback _ h

/-! ## All that a load can do -/

/-- What keeps settings from being loaded from a directory, and how that is reported. -/
inductive Obstacle (base : Location) (t : FileTree) : Error → Prop where
  /-- The directory has a name that no directory can have. -/
  | unnamable : ¬ NulFree base.route → Obstacle base t (.cannotCreate base.shown)
  /-- A file stands in place of the directory or of one above it. -/
  | blocked : NulFree base.route → ¬ t.FreeOfFiles base.path →
      Obstacle base t (.cannotCreate base.shown)
  /-- A directory, or a file that is no text, stands in place of the file. -/
  | notText {sh : Shape} : NulFree base.route → t.shapeAt? (fileIn base).path = some sh →
      (∀ text : String, sh ≠ .file text.toUTF8) →
      Obstacle base t (.cannotRead (fileIn base).shown)
  /-- The text of the file is malformed or not accepted. -/
  | refused {text : String} {e : Error} : NulFree base.route →
      t.shapeAt? (fileIn base).path = some (.file text.toUTF8) → ofText text = .error e →
      Obstacle base t e

theorem load_of_obstacle (hbase : base.IsPlain) (h : Obstacle base t e) :
    load base t = (.error e, t) := by
  cases h with
  | unnamable hnul => exact load_of_not_nulFree hnul t
  | blocked hnul hblocked => exact load_of_blocked hbase hnul hblocked
  | notText hnul hfile hsh => exact load_of_not_text hbase hnul hfile hsh
  | refused hnul hfile hread => exact load_of_refused hbase hnul hfile hread

/-- The ways in which a load ends, with its result and the tree it leaves. -/
inductive Loads (base : Location) (t : FileTree) : Except Error Loaded × FileTree → Prop where
  | failed {e : Error} : Obstacle base t e → Loads base t (.error e, t)
  | created {t₁ t' : FileTree} : NulFree base.route → t.shapeAt? (fileIn base).path = none →
      t.FreeOfFiles base.path → t.CreatesDirs base.path t₁ →
      t₁.WritesFile (fileIn base).path (toText {}).toUTF8 t' →
      Loads base t (.ok ⟨{}, false⟩, t')
  | kept {s : Settings} : NulFree base.route →
      t.shapeAt? (fileIn base).path = some (.file s.toText.toUTF8) → ofText s.toText = .ok s →
      Loads base t (.ok ⟨s, false⟩, t)
  | normalized {text : String} {s : Settings} {t' : FileTree} : NulFree base.route →
      t.shapeAt? (fileIn base).path = some (.file text.toUTF8) → ofText text = .ok s →
      text ≠ s.toText → t.WritesFile (fileIn base).path s.toText.toUTF8 t' →
      Loads base t (.ok ⟨s, true⟩, t')

theorem load_cases (hbase : base.IsPlain) (t : FileTree) : Loads base t (load base t) := by
  have hfails : ∀ {e : Error}, Obstacle base t e → Loads base t (load base t) := by
    intro e h
    rw [load_of_obstacle hbase h]
    exact .failed h
  by_cases hnul : NulFree base.route
  · cases hfile : t.shapeAt? (fileIn base).path with
    | none =>
        by_cases hfree : t.FreeOfFiles base.path
        · obtain ⟨t₁, t', hload, hdirs, hwrites⟩ := load_of_missing hbase hnul hfile hfree
          rw [hload]
          exact .created hnul hfile hfree hdirs hwrites
        · exact hfails (.blocked hnul hfree)
    | some sh =>
        by_cases htext : ∃ text : String, sh = .file text.toUTF8
        · obtain ⟨text, rfl⟩ := htext
          cases hread : ofText text with
          | error e => exact hfails (.refused hnul hfile hread)
          | ok s =>
              by_cases hsame : text = s.toText
              · subst hsame
                rw [load_of_toText hbase hnul hfile (validate_of_ofText hread)]
                exact .kept hnul hfile hread
              · obtain ⟨t', hload, hwrites⟩ := load_of_other_text hbase hnul hfile hread hsame
                rw [hload]
                exact .normalized hnul hfile hread hsame hwrites
        · exact hfails (.notText hnul hfile fun text h => htext ⟨text, h⟩)
  · exact hfails (.unnamable hnul)

/-! ## Success -/

variable {l : Loaded}

/-- A file has one text only. -/
theorem text_unique {p : Path} {text text' : String} (h : t.shapeAt? p = some (.file text.toUTF8))
    (h' : t.shapeAt? p = some (.file text'.toUTF8)) : text = text' := by
  rw [← bind_text?_eq_some_iff] at h h'
  exact Option.some.inj (h.symm.trans h')

theorem settings_of_file {p : Path} {text : String} {s : Settings}
    (hfile : t.shapeAt? p = some (.file text.toUTF8)) (hread : ofText text = .ok s) :
    (t.shapeAt? p = none → s = {})
      ∧ ∀ text' : String, t.shapeAt? p = some (.file text'.toUTF8) → ofText text' = .ok s := by
  refine ⟨fun hnone => ?_, fun text' hfile' => ?_⟩
  · rw [hfile] at hnone
    cases hnone
  · rw [text_unique hfile' hfile]
    exact hread

/-- After a successful load the file has the text that the settings are saved with. -/
theorem Loads.toText (h : Loads base t (.ok l, t')) :
    NulFree base.route ∧ validate l.settings = .ok ()
      ∧ t'.shapeAt? (fileIn base).path = some (.file l.settings.toText.toUTF8) := by
  cases h with
  | created hnul _ _ _ hwrites => exact ⟨hnul, validate_default, hwrites.shapeAt?_self⟩
  | kept hnul hfile hread => exact ⟨hnul, validate_of_ofText hread, hfile⟩
  | normalized hnul _ hread _ hwrites =>
      exact ⟨hnul, validate_of_ofText hread, hwrites.shapeAt?_self⟩

/-- The settings are the default ones if there was no file, and else those of its text. -/
theorem Loads.settings (h : Loads base t (.ok l, t')) :
    (t.shapeAt? (fileIn base).path = none → l.settings = {})
      ∧ ∀ text : String, t.shapeAt? (fileIn base).path = some (.file text.toUTF8) →
          ofText text = .ok l.settings := by
  cases h with
  | created _ hnone _ _ _ =>
      refine ⟨fun _ => rfl, fun text hfile => ?_⟩
      rw [hnone] at hfile
      cases hfile
  | kept _ hfile hread => exact settings_of_file hfile hread
  | normalized _ hfile hread _ _ => exact settings_of_file hfile hread

/-- The file is written again if it had another text; if it had that text nothing is written. -/
theorem Loads.rewritten (h : Loads base t (.ok l, t')) :
    (l.normalized = true ↔ ∃ text : String, t.shapeAt? (fileIn base).path = some (.file text.toUTF8)
        ∧ text ≠ l.settings.toText)
      ∧ (l.normalized = false → t.shapeAt? (fileIn base).path ≠ none → t' = t) := by
  cases h with
  | created _ hnone _ _ _ => simp [hnone]
  | @kept s _ hfile _ =>
      have hsame : ¬ ∃ text : String, t.shapeAt? (fileIn base).path = some (.file text.toUTF8)
          ∧ text ≠ s.toText := by
        rintro ⟨text, hfile', hne⟩
        exact hne (text_unique hfile' hfile)
      exact ⟨⟨fun h => (Bool.false_ne_true h).elim, fun h => absurd h hsame⟩, fun _ _ => rfl⟩
  | normalized _ hfile _ hne _ => exact ⟨⟨fun _ => ⟨_, hfile, hne⟩, fun _ => rfl⟩, by simp⟩

/-- Apart from the file, only missing directories on the way to it are changed. -/
theorem Loads.frame (h : Loads base t (.ok l, t')) {p : Path} (hp : p ≠ (fileIn base).path) :
    t'.shapeAt? p = t.shapeAt? p
      ∨ p <+: base.path ∧ t.shapeAt? p = none ∧ t'.shapeAt? p = some .dir := by
  cases h with
  | created _ _ hfree hdirs hwrites =>
      rw [hwrites.shapeAt?_of_ne hp, hdirs]
      split
      · rename_i habove
        match hold : t.shapeAt? p with
        | none => exact Or.inr ⟨habove, rfl, rfl⟩
        | some .dir => exact Or.inl rfl
        | some (.file content) => exact absurd hold (hfree p habove content)
      · exact Or.inl rfl
  | kept _ _ _ => exact Or.inl rfl
  | normalized _ _ _ _ hwrites => exact Or.inl (hwrites.shapeAt?_of_ne hp)

/-- Settings are loaded from a directory exactly if there is no file for them and no file stands in
the way of the directory, or if the file has a text that is accepted.  They are the default ones or
those of the text, and afterwards the file has the text that they are saved with.  It is written
again exactly if it had another text, and apart from it only missing directories are created.  A
second load gives the same settings and changes nothing. -/
theorem load_normalizes (base : Location) (hbase : base.IsPlain) (t : FileTree) :
    ((∃ l t', load base t = (.ok l, t'))
        ↔ NulFree base.route
          ∧ (t.shapeAt? (fileIn base).path = none ∧ t.FreeOfFiles base.path
            ∨ ∃ (text : String) (s : Settings),
                t.shapeAt? (fileIn base).path = some (.file text.toUTF8) ∧ ofText text = .ok s))
      ∧ ∀ l t', load base t = (.ok l, t') →
          (t.shapeAt? (fileIn base).path = none → l.settings = {})
            ∧ (∀ text : String, t.shapeAt? (fileIn base).path = some (.file text.toUTF8) →
                ofText text = .ok l.settings)
            ∧ t'.shapeAt? (fileIn base).path = some (.file l.settings.toText.toUTF8)
            ∧ (l.normalized = true ↔ ∃ text : String,
                t.shapeAt? (fileIn base).path = some (.file text.toUTF8)
                  ∧ text ≠ l.settings.toText)
            ∧ (l.normalized = false → t.shapeAt? (fileIn base).path ≠ none → t' = t)
            ∧ (∀ p, p ≠ (fileIn base).path → t'.shapeAt? p = t.shapeAt? p
                ∨ p <+: base.path ∧ t.shapeAt? p = none ∧ t'.shapeAt? p = some .dir)
            ∧ load base t' = (.ok ⟨l.settings, false⟩, t') := by
  have hcases := load_cases hbase t
  refine ⟨⟨?_, ?_⟩, ?_⟩
  · rintro ⟨l, t', hload⟩
    rw [hload] at hcases
    cases hcases with
    | created hnul hnone hfree _ _ => exact ⟨hnul, Or.inl ⟨hnone, hfree⟩⟩
    | kept hnul hfile hread => exact ⟨hnul, Or.inr ⟨_, _, hfile, hread⟩⟩
    | normalized hnul hfile hread _ _ => exact ⟨hnul, Or.inr ⟨_, _, hfile, hread⟩⟩
  · rintro ⟨hnul, ⟨hnone, hfree⟩ | ⟨text, s, hfile, hread⟩⟩
    · obtain ⟨_, t', hload, _⟩ := load_of_missing hbase hnul hnone hfree
      exact ⟨_, _, hload⟩
    · by_cases hsame : text = s.toText
      · subst hsame
        exact ⟨_, _, load_of_toText hbase hnul hfile (validate_of_ofText hread)⟩
      · obtain ⟨t', hload, _⟩ := load_of_other_text hbase hnul hfile hread hsame
        exact ⟨_, _, hload⟩
  · intro l t' hload
    rw [hload] at hcases
    obtain ⟨hnul, hvalid, hfile⟩ := hcases.toText
    exact ⟨hcases.settings.1, hcases.settings.2, hfile, hcases.rewritten.1, hcases.rewritten.2,
      fun p hp => hcases.frame hp, load_of_toText hbase hnul hfile hvalid⟩

/-- A file with one of the two keys gets the other one, and keeps its text from then on. -/
theorem load_partial_file :
    Location.root.IsPlain ∧ ∃ t', load Location.root (.dir [("root", .dir
        [("search.yaml", .file "default_field: body\n".toUTF8)])])
          = (.ok ⟨⟨"body", 512⟩, true⟩, t')
        ∧ t'.shapeAt? ["root", "search.yaml"] = some (.file (toText ⟨"body", 512⟩).toUTF8)
        ∧ load Location.root t' = (.ok ⟨⟨"body", 512⟩, false⟩, t') := by
  have hbase : Location.root.IsPlain := ⟨by decide, by decide⟩
  have hread : ofText "default_field: body\n" = .ok ⟨"body", 512⟩ := by rfl
  have hother : "default_field: body\n" ≠ toText ⟨"body", 512⟩ := by decide +kernel
  have hload := load_normalizes Location.root hbase
    (.dir [("root", .dir [("search.yaml", .file "default_field: body\n".toUTF8)])])
  obtain ⟨⟨s, normalized⟩, t', hok⟩ := hload.1.2 ⟨by decide, Or.inr ⟨_, _, rfl, hread⟩⟩
  obtain ⟨_, hsettings, hfile, hrewritten, _, _, hagain⟩ := hload.2 _ t' hok
  have hs : s = ⟨"body", 512⟩ := by
    have hboth := (hsettings _ rfl).symm.trans hread
    exact Except.ok.inj hboth
  subst hs
  obtain rfl : normalized = true := hrewritten.2 ⟨_, rfl, hother⟩
  exact ⟨hbase, t', hok, hfile, hagain⟩

/-! ## Failure -/

/-- Loading and saving fail exactly on the obstacles that there are, and then leave the tree as it
was, with nothing created, written or rewritten in it. -/
theorem failure_changes_nothing (base : Location) (hbase : base.IsPlain) (t : FileTree) :
    (∀ e t', load base t = (.error e, t') ↔ t' = t ∧ Obstacle base t e)
      ∧ ∀ (s : Settings) e t', save s base t = (.error e, t')
          ↔ t' = t ∧ e = .cannotWrite (fileIn base).shown
            ∧ (¬ NulFree base.route ∨ t.shapeAt? (fileIn base).path = some .dir
              ∨ t.shapeAt? base.path ≠ some .dir) := by
  refine ⟨?_, fun s e t' => save_error_iff hbase s⟩
  intro e t'
  constructor
  · intro hload
    have hcases := load_cases hbase t
    rw [hload] at hcases
    cases hcases with
    | failed hobstacle => exact ⟨rfl, hobstacle⟩
  · rintro ⟨rfl, hobstacle⟩
    exact load_of_obstacle hbase hobstacle

/-- Below a file there is nothing to load, and nothing can be saved. -/
theorem failure_below_file :
    Location.IsPlain ⟨["root", "f", "conf"], "<root>/f/conf"⟩
      ∧ load ⟨["root", "f", "conf"], "<root>/f/conf"⟩ (.dir [("root", .dir [("f", .file ⟨#[]⟩)])])
        = (.error (.cannotCreate "<root>/f/conf"), .dir [("root", .dir [("f", .file ⟨#[]⟩)])])
      ∧ save {} ⟨["root", "f", "conf"], "<root>/f/conf"⟩ (.dir [("root", .dir [("f", .file ⟨#[]⟩)])])
        = (.error (.cannotWrite "<root>/f/conf/search.yaml"),
          .dir [("root", .dir [("f", .file ⟨#[]⟩)])]) := by
  have hbase : Location.IsPlain ⟨["root", "f", "conf"], "<root>/f/conf"⟩ := ⟨by decide, by decide⟩
  have hfails := failure_changes_nothing _ hbase (.dir [("root", .dir [("f", .file ⟨#[]⟩)])])
  have hblocked : ¬ FreeOfFiles (.dir [("root", .dir [("f", .file ⟨#[]⟩)])]) ["root", "f", "conf"] :=
    fun hfree => hfree ["root", "f"] ⟨["conf"], rfl⟩ ⟨#[]⟩ rfl
  refine ⟨hbase, (hfails.1 _ _).2 ⟨rfl, .blocked (by decide) hblocked⟩, (hfails.2 {} _ _).2 ?_⟩
  have hshown : (fileIn ⟨["root", "f", "conf"], "<root>/f/conf"⟩).shown
      = "<root>/f/conf/search.yaml" := by decide +kernel
  have hnone : shapeAt? (.dir [("root", .dir [("f", .file ⟨#[]⟩)])]) ["root", "f", "conf"] = none := rfl
  refine ⟨rfl, by rw [hshown], Or.inr (Or.inr ?_)⟩
  intro hdir
  cases hnone.symm.trans hdir

end Settings
end SearchBox
