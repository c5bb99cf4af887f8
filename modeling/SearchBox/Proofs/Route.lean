import SearchBox.FileTree.Route
import SearchBox.Proofs.FileTree

/-!
# Routes without dots

A route of plain components leads to the path of its names, if it leads anywhere: a component that is
empty stays where it is, and every other one is a name.  For such routes

* `look_concat`, `write_concat` — looking at an entry of a directory and writing it are looking and
  writing at its path;
* `createDirs_cases` — creating the directories of a route either makes every path on the way a
  directory and changes nothing else, or fails on a file in the way and changes nothing at all.

With dots the second is not so: the directories before the dots stay after a failure.
-/

namespace SearchBox
namespace FileTree

variable {t t' : FileTree} {here p q : Path} {r : Route} {c name : String} {content : ByteArray}

/-! ## Plain routes -/

/-- The names on a route: all of its components that are not empty. -/
def Route.names (r : Route) : Path :=
  r.filter (· ≠ "")

/-- A component that is neither a dot nor two dots and is not too long for a name. -/
structure IsPlain (c : String) : Prop where
  ne_dot : c ≠ "."
  ne_dots : c ≠ ".."
  length_le : c.utf8ByteSize ≤ maxNameLength

instance (c : String) : Decidable (IsPlain c) :=
  decidable_of_iff (c ≠ "." ∧ c ≠ ".." ∧ c.utf8ByteSize ≤ maxNameLength)
    ⟨fun h => ⟨h.1, h.2.1, h.2.2⟩, fun h => ⟨h.ne_dot, h.ne_dots, h.length_le⟩⟩

/-- No component of the route has a NUL in it. -/
def NulFree (r : Route) : Prop :=
  ∀ c ∈ r, '\x00' ∉ c.toList

instance (r : Route) : Decidable (NulFree r) :=
  inferInstanceAs (Decidable (∀ c ∈ r, '\x00' ∉ c.toList))

theorem isAdmissible_iff : isAdmissible r = true ↔ NulFree r ∧ routeLength r ≤ maxRouteLength := by
  simp [isAdmissible, NulFree]

theorem routeLength_append (r₁ r₂ : Route) :
    routeLength (r₁ ++ r₂) = routeLength r₁ + routeLength r₂ := by
  induction r₁ with
  | nil => simp [routeLength]
  | cons c r₁ ih =>
      rw [List.cons_append, routeLength, routeLength, ih]
      omega

@[simp] theorem names_nil : Route.names [] = [] := rfl

@[simp] theorem names_cons_empty (r : Route) : Route.names ("" :: r) = Route.names r := by
  simp [Route.names]

theorem names_cons (hc : c ≠ "") (r : Route) : Route.names (c :: r) = c :: Route.names r := by
  simp [Route.names, hc]

/-! ## Following a route -/

theorem enter_of_not_dir (h : t.shapeAt? here ≠ some .dir) (c : String) : t.enter here c = none := by
  have hdir : (t.get? here).any isDir = false := by
    rw [Bool.eq_false_iff]
    exact fun hdir => h (any_isDir_iff.1 hdir)
  simp [enter, hdir]

theorem enter_empty (h : t.shapeAt? here = some .dir) : t.enter here "" = some here := by
  simp [enter, any_isDir_iff.2 h, Route.stays]

theorem enter_name (h : t.shapeAt? here = some .dir) (hplain : IsPlain c) (hc : c ≠ "") :
    t.enter here c = some (here ++ [c]) := by
  have hlength : ¬ maxNameLength < c.utf8ByteSize := Nat.not_lt.2 hplain.length_le
  simp [enter, any_isDir_iff.2 h, Route.stays, hc, hplain.ne_dot, hplain.ne_dots, hlength]

/-- A route with a NUL in it leads nowhere. -/
theorem follow_of_not_nulFree (h : ¬ NulFree r) (t : FileTree) : t.follow r = none := by
  rw [follow, if_neg]
  exact fun hadm => h (isAdmissible_iff.1 hadm).1

/-- A route that leads somewhere leads to the path of its names. -/
theorem foldlM_enter_eq (hplain : ∀ c ∈ r, IsPlain c) (h : r.foldlM t.enter here = some p) :
    p = here ++ r.names := by
  induction r generalizing here with
  | nil =>
      cases h
      simp
  | cons c r ih =>
      have hrest : ∀ d ∈ r, IsPlain d := fun d hd => hplain d (by simp [hd])
      rw [List.foldlM_cons] at h
      by_cases hdir : t.shapeAt? here = some .dir
      · by_cases hc : c = ""
        · subst hc
          rw [enter_empty hdir] at h
          rw [names_cons_empty]
          exact ih hrest h
        · rw [enter_name hdir (hplain c (by simp)) hc] at h
          rw [ih hrest h, names_cons hc, List.append_assoc]
          rfl
      · rw [enter_of_not_dir hdir] at h
        cases h

/-- A route to a directory leads there. -/
theorem foldlM_enter_of_dir (hplain : ∀ c ∈ r, IsPlain c)
    (h : t.shapeAt? (here ++ r.names) = some .dir) :
    r.foldlM t.enter here = some (here ++ r.names) := by
  induction r generalizing here with
  | nil => simp
  | cons c r ih =>
      have hrest : ∀ d ∈ r, IsPlain d := fun d hd => hplain d (by simp [hd])
      have hdir : t.shapeAt? here = some .dir :=
        shapeAt?_of_isPrefix (List.prefix_append here _) h
      rw [List.foldlM_cons]
      by_cases hc : c = ""
      · subst hc
        rw [enter_empty hdir]
        rw [names_cons_empty] at h ⊢
        exact ih hrest h
      · have hcut : here ++ Route.names (c :: r) = (here ++ [c]) ++ Route.names r := by
          rw [names_cons hc, List.append_assoc]
          rfl
        rw [enter_name hdir (hplain c (by simp)) hc]
        rw [hcut] at h ⊢
        exact ih hrest h

/-- The route to an entry of a directory leads to its path, if there is that directory. -/
theorem follow_concat_of_dir (hplain : ∀ c ∈ r, IsPlain c) (hname : IsPlain name) (hne : name ≠ "")
    (hadm : isAdmissible (r ++ [name]) = true) (h : t.shapeAt? r.names = some .dir) :
    t.follow (r ++ [name]) = some (r.names ++ [name]) := by
  have hroute : r.foldlM t.enter [] = some r.names :=
    foldlM_enter_of_dir hplain (by simpa using h)
  rw [follow, if_pos hadm, List.foldlM_append, hroute]
  simp [enter_name h hname hne]

theorem follow_concat_of_not_dir (hplain : ∀ c ∈ r, IsPlain c) (h : t.shapeAt? r.names ≠ some .dir) :
    t.follow (r ++ [name]) = none := by
  unfold follow
  split
  · rw [List.foldlM_append]
    cases hroute : r.foldlM t.enter [] with
    | none => rfl
    | some p =>
        have hp : p = r.names := by simpa using foldlM_enter_eq hplain hroute
        rw [← hp] at h
        simp [enter_of_not_dir h]
  · rfl

/-- What is at the end of a route to an entry is what is at its path. -/
theorem look_concat (hplain : ∀ c ∈ r, IsPlain c) (hname : IsPlain name) (hne : name ≠ "")
    (hadm : isAdmissible (r ++ [name]) = true) (t : FileTree) :
    t.look (r ++ [name]) = t.get? (r.names ++ [name]) := by
  by_cases h : t.shapeAt? r.names = some .dir
  · simp [look, follow_concat_of_dir hplain hname hne hadm h]
  · -- There is no entry where there is no directory.
    have hnone : t.shapeAt? (r.names ++ [name]) = none := by
      cases hentry : t.shapeAt? (r.names ++ [name]) with
      | none => rfl
      | some s => exact absurd (shapeAt?_of_append hentry) h
    rw [look, follow_concat_of_not_dir hplain h, shapeAt?_eq_none_iff.1 hnone]
    rfl

/-- Writing a file at the end of a route to an entry is writing it at its path. -/
theorem write_concat (hplain : ∀ c ∈ r, IsPlain c) (hname : IsPlain name) (hne : name ≠ "")
    (hadm : isAdmissible (r ++ [name]) = true) (t : FileTree) (content : ByteArray) :
    t.write content (r ++ [name]) = t.writeFile content (r.names ++ [name]) := by
  by_cases h : t.shapeAt? r.names = some .dir
  · simp [write, follow_concat_of_dir hplain hname hne hadm h]
  · rw [write, follow_concat_of_not_dir hplain h, writeFile_eq_none_iff.2 (Or.inr h)]
    rfl

/-! ## Creating directories -/

/-- No file stands at a path or above it, so that there is a directory at the path or one can be
created. -/
def FreeOfFiles (t : FileTree) (p : Path) : Prop :=
  ∀ q, q <+: p → ∀ content, t.shapeAt? q ≠ some (.file content)

/-- Every path on the way is a directory afterwards, and every other path is as it was. -/
def CreatesDirs (t : FileTree) (p : Path) (t' : FileTree) : Prop :=
  ∀ q, t'.shapeAt? q = if q <+: p then some .dir else t.shapeAt? q

theorem freeOfFiles_of_dir (h : t.shapeAt? p = some .dir) : t.FreeOfFiles p := by
  intro q hq content hfile
  rw [shapeAt?_of_isPrefix hq h] at hfile
  cases hfile

theorem createsDirs_of_dir (h : t.shapeAt? p = some .dir) : t.CreatesDirs p t := by
  intro q
  split
  · rename_i hq
    exact shapeAt?_of_isPrefix hq h
  · rfl

theorem createFrom_of_not_dir (h : t.shapeAt? here ≠ some .dir) (r : Route) :
    t.createFrom here r = (t, false) := by
  cases r with
  | nil =>
      have hdir : (t.get? here).any isDir = false := by
        rw [Bool.eq_false_iff]
        exact fun hdir => h (any_isDir_iff.1 hdir)
      simp [createFrom, hdir]
  | cons c r => simp [createFrom, enter_of_not_dir h]

theorem endsInDots_of_plain (h : ∀ c ∈ r, IsPlain c) : endsInDots r = false := by
  have hdot : "." ∉ r := fun hmem => (h "." hmem).ne_dot rfl
  simp [endsInDots, hdot]

theorem createFrom_empty (h : t.shapeAt? here = some .dir) (r : Route) :
    t.createFrom here ("" :: r) = t.createFrom here r := by
  have hsome : (t.get? here).isSome = true := by
    rw [Option.isSome_iff_ne_none, Ne, ← shapeAt?_eq_none_iff, h]
    exact Option.some_ne_none _
  simp [createFrom, enter_empty h, hsome]

/-- A directory or a file that is there already is passed. -/
theorem createFrom_existing {s : Shape} (h : t.shapeAt? here = some .dir) (hplain : IsPlain c)
    (hc : c ≠ "") (hs : t.shapeAt? (here ++ [c]) = some s) (r : Route) :
    t.createFrom here (c :: r) = t.createFrom (here ++ [c]) r := by
  have hsome : (t.get? (here ++ [c])).isSome = true := by
    rw [Option.isSome_iff_ne_none, Ne, ← shapeAt?_eq_none_iff, hs]
    exact Option.some_ne_none _
  simp [createFrom, enter_name h hplain hc, hsome]

/-- A missing directory is created, and nothing else is changed. -/
theorem createFrom_missing (h : t.shapeAt? here = some .dir) (hplain : IsPlain c) (hc : c ≠ "")
    (hnone : t.shapeAt? (here ++ [c]) = none) (hr : ∀ d ∈ r, IsPlain d) :
    ∃ t' : FileTree, (∀ q, t'.shapeAt? q = if q = here ++ [c] then some .dir else t.shapeAt? q)
      ∧ t.createFrom here (c :: r) = t'.createFrom (here ++ [c]) r := by
  obtain ⟨t', hput⟩ : ∃ t', put (.dir []) t (here ++ [c]) = some t' := exists_put_iff.2 h
  refine ⟨t', ?_, ?_⟩
  · exact shapeAt?_put hput (fun _ _ => rfl) fun _ _ => shapeAt?_append_of_none hnone _
  · have hget : t.get? (here ++ [c]) = none := shapeAt?_eq_none_iff.1 hnone
    simp [createFrom, enter_name h hplain hc, hget, endsInDots_of_plain hr, hput]

/-- Below a missing entry of a directory no file is in the way. -/
theorem freeOfFiles_of_missing (h : t.shapeAt? here = some .dir)
    (hnone : t.shapeAt? (here ++ [c]) = none) (p : Path) : t.FreeOfFiles (here ++ [c] ++ p) := by
  intro q hq content hfile
  rcases List.prefix_or_prefix_of_prefix hq (List.prefix_append (here ++ [c]) p) with hle | ⟨r, rfl⟩
  · rcases List.prefix_concat_iff.1 hle with rfl | hle
    · rw [hnone] at hfile
      cases hfile
    · rw [shapeAt?_of_isPrefix hle h] at hfile
      cases hfile
  · rw [shapeAt?_append_of_none hnone] at hfile
    cases hfile

/-- A new directory is in the way of nothing. -/
theorem FreeOfFiles.of_made {t₁ : FileTree} {made : Path} (hfree : t.FreeOfFiles p)
    (hshape : ∀ q, t₁.shapeAt? q = if q = made then some .dir else t.shapeAt? q) :
    t₁.FreeOfFiles p := by
  intro q hq content hfile
  rw [hshape] at hfile
  split at hfile
  · cases hfile
  · exact hfree q hq content hfile

/-- A new directory on the way is one of those that are created. -/
theorem CreatesDirs.of_made {t₁ : FileTree} {made : Path} (h : t₁.CreatesDirs p t')
    (hmade : made <+: p)
    (hshape : ∀ q, t₁.shapeAt? q = if q = made then some .dir else t.shapeAt? q) :
    t.CreatesDirs p t' := by
  intro q
  rw [h q]
  split
  · rfl
  · rename_i hq
    rw [hshape, if_neg]
    rintro rfl
    exact hq hmade

/-- Creating directories from a directory on, along a plain route. -/
theorem createFrom_cases (hplain : ∀ c ∈ r, IsPlain c) (h : t.shapeAt? here = some .dir) :
    (∃ t', t.createFrom here r = (t', true) ∧ t.FreeOfFiles (here ++ r.names)
        ∧ t.CreatesDirs (here ++ r.names) t')
      ∨ t.createFrom here r = (t, false) ∧ ¬ t.FreeOfFiles (here ++ r.names) := by
  induction r generalizing t here with
  | nil =>
      left
      refine ⟨t, by simp [createFrom, any_isDir_iff.2 h], ?_, ?_⟩
      · simpa using freeOfFiles_of_dir h
      · simpa using createsDirs_of_dir h
  | cons c r ih =>
      have hrest : ∀ d ∈ r, IsPlain d := fun d hd => hplain d (by simp [hd])
      by_cases hc : c = ""
      · subst hc
        rw [createFrom_empty h, names_cons_empty]
        exact ih hrest h
      · have hcplain : IsPlain c := hplain c (by simp)
        have hcut : here ++ Route.names (c :: r) = here ++ [c] ++ Route.names r := by
          rw [names_cons hc, List.append_assoc]
          rfl
        have hnext : here ++ [c] <+: here ++ [c] ++ Route.names r := List.prefix_append _ _
        rw [hcut]
        match hentry : t.shapeAt? (here ++ [c]) with
        | some .dir =>
            rw [createFrom_existing h hcplain hc hentry]
            exact ih hrest hentry
        | some (.file content) =>
            right
            rw [createFrom_existing h hcplain hc hentry]
            refine ⟨createFrom_of_not_dir (by simp [hentry]) r, ?_⟩
            exact fun hfree => hfree _ hnext content hentry
        | none =>
            -- From here on everything is missing, so nothing can be in the way.
            left
            have hfree := freeOfFiles_of_missing h hentry (Route.names r)
            obtain ⟨t₁, hshape, hcreate⟩ := createFrom_missing h hcplain hc hentry hrest
            have hdir : t₁.shapeAt? (here ++ [c]) = some .dir := by
              rw [hshape, if_pos rfl]
            rw [hcreate]
            rcases ih hrest hdir with ⟨t', hok, _, hdirs⟩ | ⟨_, hblocked⟩
            · exact ⟨t', hok, hfree, hdirs.of_made hnext hshape⟩
            · exact absurd (hfree.of_made hshape) hblocked

/-- Creating the directories of a plain route either makes every path on the way a directory and
changes nothing else, or fails on a file in the way and changes nothing at all. -/
theorem createDirs_cases (hplain : ∀ c ∈ r, IsPlain c) (hadm : isAdmissible r = true)
    (t : FileTree) :
    (∃ t', t.createDirs r = (t', true) ∧ t.FreeOfFiles r.names ∧ t.CreatesDirs r.names t')
      ∨ t.createDirs r = (t, false) ∧ ¬ t.FreeOfFiles r.names := by
  rw [createDirs, if_pos hadm]
  match htop : t.shapeAt? [] with
  | some .dir => simpa using createFrom_cases hplain htop
  | some (.file content) =>
      right
      refine ⟨createFrom_of_not_dir (by rw [htop]; simp) r, ?_⟩
      exact fun hfree => hfree [] List.nil_prefix content htop
  | none => simp at htop

end FileTree
end SearchBox
