import SearchBox.FileTree

/-!
# Changes of a file tree

Two trees are compared by what stands at each path, without what is below it: `FileTree.shapeAt?`.
A change at one path is then told by one equation that says what every path shows afterwards:

* `shapeAt?_put` — putting a file or an empty directory at a path changes nothing but that path;
* `exists_put_iff` — it is possible exactly in a directory;
* `writeFile_eq_none_iff`, `writesFile_of_writeFile` — the same for writing a file.

What is above something is a directory (`shapeAt?_of_append`), so nothing is below a file.
-/

namespace SearchBox
namespace FileTree

variable {t t' x : FileTree} {p q : Path} {name : String} {content : ByteArray}
variable {entries : List (String × FileTree)}

/-! ## What stands at a path -/

/-- A file with its content, or a directory with whatever is in it. -/
inductive Shape where
  | file (content : ByteArray)
  | dir

def shape : FileTree → Shape
  | .file content => .file content
  | .dir _ => .dir

/-- What stands at a path, without what is below it. -/
def shapeAt? (t : FileTree) (p : Path) : Option Shape :=
  (t.get? p).map shape

@[simp] theorem get?_nil (t : FileTree) : t.get? [] = some t := by
  cases t <;> rfl

@[simp] theorem get?_file_cons : (FileTree.file content).get? (name :: p) = none := rfl

@[simp] theorem get?_dir_cons :
    (FileTree.dir entries).get? (name :: p) = (child? name entries).bind fun t => t.get? p := rfl

@[simp] theorem shapeAt?_nil (t : FileTree) : t.shapeAt? [] = some t.shape := by
  simp [shapeAt?]

@[simp] theorem shapeAt?_file_cons : (FileTree.file content).shapeAt? (name :: p) = none := rfl

@[simp] theorem shapeAt?_dir_cons :
    (FileTree.dir entries).shapeAt? (name :: p)
      = (child? name entries).bind fun t => t.shapeAt? p := by
  cases h : child? name entries with
  | none => simp [shapeAt?, h]
  | some t => simp [shapeAt?, h]

theorem get?_append (t : FileTree) (p q : Path) :
    t.get? (p ++ q) = (t.get? p).bind fun u => u.get? q := by
  induction p generalizing t with
  | nil => simp
  | cons name p ih =>
      cases t with
      | file content => rfl
      | dir entries =>
          cases h : child? name entries with
          | none => simp [h]
          | some u => simp [h, ih]

theorem shapeAt?_eq_none_iff : t.shapeAt? p = none ↔ t.get? p = none := by
  simp [shapeAt?]

/-- Whether there is a directory at a path can be told by its shape. -/
theorem any_isDir_iff : (t.get? p).any isDir = true ↔ t.shapeAt? p = some .dir := by
  unfold shapeAt?
  cases t.get? p with
  | none => simp
  | some u => cases u <;> simp [isDir, shape]

/-- The text of a file is its content as UTF-8. -/
theorem fromUTF8?_eq_some_iff {text : String} :
    String.fromUTF8? content = some text ↔ content = text.toUTF8 := by
  constructor
  · intro h
    unfold String.fromUTF8? at h
    split at h
    · cases h
      rfl
    · cases h
  · rintro rfl
    have hvalid : text.toUTF8.IsValidUTF8 := text.isValidUTF8
    rw [String.fromUTF8?, dif_pos hvalid]
    rfl

theorem bind_text?_eq_some_iff {text : String} :
    (t.get? p).bind text? = some text ↔ t.shapeAt? p = some (.file text.toUTF8) := by
  unfold shapeAt?
  cases t.get? p with
  | none => simp
  | some u =>
      cases u with
      | file content => simp [text?, shape, fromUTF8?_eq_some_iff]
      | dir entries => simp [text?, shape]

/-- Above something there is a directory. -/
theorem shapeAt?_of_append {s : Shape} (h : t.shapeAt? (p ++ name :: q) = some s) :
    t.shapeAt? p = some .dir := by
  rw [shapeAt?, get?_append] at h
  rw [shapeAt?]
  cases hp : t.get? p with
  | none => simp [hp] at h
  | some u =>
      cases u with
      | file content => simp [hp] at h
      | dir entries => rfl

/-- Where nothing is, nothing is below. -/
theorem shapeAt?_append_of_none (h : t.shapeAt? p = none) (q : Path) :
    t.shapeAt? (p ++ q) = none := by
  rw [shapeAt?_eq_none_iff] at h ⊢
  rw [get?_append, h]
  rfl

theorem shapeAt?_of_isPrefix (hpq : p <+: q) (h : t.shapeAt? q = some .dir) :
    t.shapeAt? p = some .dir := by
  obtain ⟨r, rfl⟩ := hpq
  cases r with
  | nil => simpa using h
  | cons name r => exact shapeAt?_of_append h

/-! ## Entries of a directory -/

theorem child?_setChild (n name : String) (t : FileTree) (entries : List (String × FileTree)) :
    child? n (setChild name t entries) = if n = name then some t else child? n entries := by
  induction entries with
  | nil => simp [setChild, child?, eq_comm]
  | cons e entries ih =>
      obtain ⟨m, u⟩ := e
      by_cases hm : m = name
      · simp only [setChild, hm, if_true, child?, eq_comm]
        split <;> rfl
      · by_cases hn : m = n
        · have hne : n ≠ name := hn ▸ hm
          simp [setChild, child?, hn, hne]
        · simp [setChild, hm, child?, hn, ih]

/-! ## Putting something at a path -/

theorem put_cons_of_ne (h : p ≠ []) :
    put x (.dir entries) (name :: p)
      = ((child? name entries).bind fun t => put x t p).map fun t =>
          .dir (setChild name t entries) := by
  cases p with
  | nil => exact absurd rfl h
  | cons n p => rfl

/-- Putting something below a name changes the entry with that name. -/
theorem put_cons_eq_some (h : put x t (name :: p) = some t') :
    ∃ entries u, t = .dir entries ∧ t' = .dir (setChild name u entries)
      ∧ (p = [] ∧ u = x ∨ ∃ v, child? name entries = some v ∧ put x v p = some u) := by
  cases t with
  | file content => cases h
  | dir entries =>
      by_cases hp : p = []
      · subst hp
        cases h
        exact ⟨entries, x, rfl, rfl, Or.inl ⟨rfl, rfl⟩⟩
      · rw [put_cons_of_ne hp] at h
        cases hchild : child? name entries with
        | none => simp [hchild] at h
        | some v =>
            cases hput : put x v p with
            | none => simp [hchild, hput] at h
            | some u =>
                simp only [hchild, Option.bind_some, hput, Option.map_some, Option.some.injEq] at h
                exact ⟨entries, u, rfl, h.symm, Or.inr ⟨v, hchild, hput⟩⟩

theorem get?_put (h : put x t p = some t') : t'.get? p = some x := by
  induction p generalizing t t' with
  | nil => cases t <;> cases h
  | cons name p ih =>
      obtain ⟨entries, u, rfl, rfl, ⟨rfl, rfl⟩ | ⟨v, _, hput⟩⟩ := put_cons_eq_some h
      · simp [child?_setChild]
      · simp [child?_setChild, ih hput]

/-- Paths that do not lead through a path are not changed by what is put there. -/
theorem shapeAt?_put_of_not_isPrefix (h : put x t p = some t') (hq : ¬ p <+: q) :
    t'.shapeAt? q = t.shapeAt? q := by
  induction p generalizing t t' q with
  | nil => exact absurd (List.nil_prefix) hq
  | cons name p ih =>
      obtain ⟨entries, u, rfl, rfl, hput⟩ := put_cons_eq_some h
      cases q with
      | nil => rfl
      | cons n q =>
          by_cases hn : n = name
          · -- The path leads through the entry that is changed, but past the end of the other path.
            subst hn
            have hpq : ¬ p <+: q := fun hpq => hq ((List.prefix_cons_inj n).2 hpq)
            rcases hput with ⟨rfl, _⟩ | ⟨v, hchild, hput⟩
            · exact absurd List.nil_prefix hpq
            · simp [child?_setChild, hchild, ih hput hpq]
          · simp [child?_setChild, hn]

/-- Putting something that holds nothing, where nothing is below, changes that path only. -/
theorem shapeAt?_put (h : put x t p = some t') (hx : ∀ name q, x.get? (name :: q) = none)
    (ht : ∀ name q, t.shapeAt? (p ++ name :: q) = none) (q : Path) :
    t'.shapeAt? q = if q = p then some x.shape else t.shapeAt? q := by
  by_cases hq : p <+: q
  · obtain ⟨r, rfl⟩ := hq
    have hbelow : t'.shapeAt? (p ++ r) = x.shapeAt? r := by
      rw [shapeAt?, get?_append, get?_put h]
      rfl
    cases r with
    | nil => simpa using hbelow
    | cons name r =>
        rw [hbelow, if_neg (by simp), ht, shapeAt?, hx]
        rfl
  · rw [shapeAt?_put_of_not_isPrefix h hq, if_neg]
    rintro rfl
    exact hq (List.prefix_refl q)

/-- Something can be put in a directory, and nowhere else. -/
theorem exists_put_iff :
    (∃ t', put x t (p ++ [name]) = some t') ↔ t.shapeAt? p = some .dir := by
  induction p generalizing t with
  | nil =>
      cases t with
      | file content => simp [put, shape]
      | dir entries => simp [put, shape]
  | cons n p ih =>
      cases t with
      | file content => simp [put]
      | dir entries =>
          rw [List.cons_append, put_cons_of_ne (by simp), shapeAt?_dir_cons]
          cases hchild : child? n entries with
          | none => simp
          | some v =>
              rw [Option.bind_some, Option.bind_some, ← ih]
              constructor
              · rintro ⟨t', h⟩
                obtain ⟨u, hu, _⟩ := Option.map_eq_some_iff.1 h
                exact ⟨u, hu⟩
              · rintro ⟨u, hu⟩
                rw [hu]
                exact ⟨_, rfl⟩

/-! ## Writing a file -/

/-- A file cannot be written in place of a directory, nor where there is no directory for it. -/
theorem writeFile_eq_none_iff :
    t.writeFile content (p ++ [name]) = none
      ↔ t.shapeAt? (p ++ [name]) = some .dir ∨ t.shapeAt? p ≠ some .dir := by
  unfold writeFile
  by_cases hdir : (t.get? (p ++ [name])).any isDir = true
  · simp [hdir, any_isDir_iff.1 hdir]
  · have hne : t.shapeAt? (p ++ [name]) ≠ some .dir := fun h => hdir (any_isDir_iff.2 h)
    have hput : (∃ t', put (.file content) t (p ++ [name]) = some t') ↔ t.shapeAt? p = some .dir :=
      exists_put_iff
    rw [if_neg hdir]
    cases hresult : put (.file content) t (p ++ [name]) with
    | none => simp [← hput, hresult]
    | some t' => simp [← hput, hresult, hne]

/-- A file with that content stands at the path afterwards, and every other path is as it was. -/
def WritesFile (t : FileTree) (p : Path) (content : ByteArray) (t' : FileTree) : Prop :=
  ∀ q, t'.shapeAt? q = if q = p then some (.file content) else t.shapeAt? q

theorem WritesFile.shapeAt?_self (h : t.WritesFile p content t') :
    t'.shapeAt? p = some (.file content) :=
  (h p).trans (if_pos rfl)

theorem WritesFile.shapeAt?_of_ne (h : t.WritesFile p content t') (hq : q ≠ p) :
    t'.shapeAt? q = t.shapeAt? q :=
  (h q).trans (if_neg hq)

theorem writesFile_of_writeFile (h : t.writeFile content p = some t') :
    t.WritesFile p content t' := by
  unfold writeFile at h
  by_cases hdir : (t.get? p).any isDir = true
  · rw [if_pos hdir] at h
    cases h
  · rw [if_neg hdir] at h
    refine shapeAt?_put h (fun _ _ => rfl) ?_
    -- There is no directory at the path, so nothing is below it.
    intro name q
    cases hbelow : t.shapeAt? (p ++ name :: q) with
    | none => rfl
    | some s => exact absurd (any_isDir_iff.2 (shapeAt?_of_append hbelow)) hdir

end FileTree
end SearchBox
