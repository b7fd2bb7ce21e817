import Mathlib.Data.List.Infix
import UringServer.Web.StaticFiles

/-!
# The root of `StaticFiles`

The check against paths outside of the root compares texts: it lets a path pass
whose text starts with that of the root. Such a path is below the root, or below
an entry next to the root whose name goes on after the name of the root.
-/

namespace UringServer.Web

open UringServer.Semantics

namespace CanonicalPath

/-- A file is at or below a directory, component by component. -/
def IsAncestor (directory file : CanonicalPath) : Prop :=
  directory.components <+: file.components

instance (directory file : CanonicalPath) : Decidable (IsAncestor directory file) :=
  inferInstanceAs (Decidable (_ <+: _))

/-- A file is at or below an entry next to a directory, whose name goes on after the name of the
directory. -/
def ExtendsName (directory file : CanonicalPath) : Prop :=
  ∃ parent name more rest, more ≠ [] ∧ directory.components = parent ++ [name] ∧
    file.components = parent ++ (name ++ more) :: rest

end CanonicalPath

/-- The text of the components. -/
def pathText (components : List Text) : Text := components.flatMap (slash :: ·)

theorem slash_not_mem {name : Text} (named : isFileName name = true) : slash ∉ name := by
  intro member
  simp [isFileName, member] at named

theorem ne_nil_of_isFileName {name : Text} (named : isFileName name = true) : name ≠ [] := by
  rintro rfl
  cases named

/-- A name and a slash start a path only if its first name is the same. -/
theorem name_slash_prefix {name other : Text} {rest : List Text} {text : Text}
    (noSlash : slash ∉ name) (otherNoSlash : slash ∉ other)
    (starts : name ++ slash :: text <+: other ++ pathText rest) :
    name = other ∧ slash :: text <+: pathText rest := by
  induction name generalizing other with
  | nil =>
    cases other with
    | nil => exact ⟨rfl, starts⟩
    | cons byte other =>
      obtain ⟨rfl, -⟩ := List.cons_prefix_cons.mp starts
      exact absurd (List.mem_cons_self ..) otherNoSlash
  | cons byte name ih =>
    rw [List.mem_cons, not_or] at noSlash
    cases other with
    | nil =>
      rcases rest with _ | ⟨next, rest⟩
      · exact absurd (List.eq_nil_of_prefix_nil starts) (by nofun)
      · exact absurd (List.cons_prefix_cons.mp starts).1.symm noSlash.1
    | cons otherByte other =>
      obtain ⟨rfl, restStarts⟩ := List.cons_prefix_cons.mp starts
      rw [List.mem_cons, not_or] at otherNoSlash
      obtain ⟨rfl, further⟩ := ih noSlash.2 otherNoSlash.2 restStarts
      exact ⟨rfl, further⟩

/-- A name starts a path only if it starts its first name. -/
theorem name_prefix {name other : Text} {rest : List Text} (noSlash : slash ∉ name)
    (starts : name <+: other ++ pathText rest) : name <+: other := by
  rcases Nat.lt_or_ge other.length name.length with long | short
  · have further : other ++ [slash] <+: other ++ pathText rest := by
      rcases rest with _ | ⟨next, rest⟩
      · have bound := starts.length_le
        rw [pathText, List.flatMap_nil, List.append_nil] at bound
        omega
      · exact List.prefix_append_right_inj other |>.mpr ⟨next ++ pathText rest, rfl⟩
    have inName : other ++ [slash] <+: name :=
      List.prefix_of_prefix_length_le further starts (by rw [List.length_append]; exact long)
    exact absurd (inName.subset (List.mem_append_right _ (List.mem_singleton_self _))) noSlash
  · exact List.prefix_of_prefix_length_le starts (List.prefix_append ..) short

/-- Where the text of a path starts that of another one. -/
theorem pathText_prefix_iff {directory file : List Text}
    (directoryNamed : ∀ name ∈ directory, isFileName name = true)
    (fileNamed : ∀ name ∈ file, isFileName name = true) :
    pathText directory <+: pathText file ↔ directory <+: file ∨
      ∃ parent name more rest, more ≠ [] ∧ directory = parent ++ [name] ∧
        file = parent ++ (name ++ more) :: rest := by
  constructor
  · intro starts
    induction directory generalizing file with
    | nil => exact .inl (List.nil_prefix)
    | cons name directory ih =>
      have noSlash := slash_not_mem (directoryNamed name (List.mem_cons_self ..))
      rcases file with _ | ⟨other, file⟩
      · exact absurd (List.eq_nil_of_prefix_nil starts) (by nofun)
      have nameStarts : name ++ pathText directory <+: other ++ pathText file :=
        (List.cons_prefix_cons.mp starts).2
      rcases directory with _ | ⟨second, directory⟩
      · rw [pathText, List.flatMap_nil, List.append_nil] at nameStarts
        obtain ⟨more, rfl⟩ := name_prefix noSlash nameStarts
        cases more with
        | nil => exact .inl ⟨file, by rw [List.append_nil]; rfl⟩
        | cons byte more => exact .inr ⟨[], name, byte :: more, file, by nofun, rfl, rfl⟩
      · obtain ⟨rfl, restStarts⟩ := name_slash_prefix noSlash
          (slash_not_mem (fileNamed other (List.mem_cons_self ..))) nameStarts
        rcases ih (fun one member => directoryNamed one (.tail _ member))
          (fun one member => fileNamed one (.tail _ member)) restStarts with below | longer
        · exact .inl (List.cons_prefix_cons.mpr ⟨rfl, below⟩)
        · obtain ⟨parent, last, more, rest, some, isDirectory, isFile⟩ := longer
          exact .inr ⟨name :: parent, last, more, rest, some, by rw [isDirectory]; rfl,
            by rw [isFile]; rfl⟩
  · rintro (⟨rest, rfl⟩ | ⟨parent, name, more, rest, -, rfl, rfl⟩)
    · rw [pathText, pathText, List.flatMap_append]
      exact List.prefix_append ..
    · refine ⟨more ++ pathText rest, ?_⟩
      simp [pathText]

namespace CanonicalPath

variable {directory file : CanonicalPath}

theorem slash_prefix_string (path : CanonicalPath) : [slash] <+: path.string := by
  unfold string
  rcases path.components with _ | ⟨name, rest⟩
  · exact List.prefix_refl _
  · exact ⟨name ++ pathText rest, rfl⟩

theorem string_eq_pathText {path : CanonicalPath} {name : Text} {rest : List Text}
    (isPath : path.components = name :: rest) : path.string = pathText path.components := by
  rw [string, isPath]
  rfl

/-- Which paths pass the comparison with the text of a directory. -/
theorem string_prefix_iff :
    directory.string <+: file.string ↔ IsAncestor directory file ∨ ExtendsName directory file := by
  have directoryNamed := List.all_eq_true.mp directory.named
  have fileNamed := List.all_eq_true.mp file.named
  rcases isDirectory : directory.components with _ | ⟨name, rest⟩
  · refine iff_of_true ?_ (.inl ?_)
    · rw [string, isDirectory]
      exact file.slash_prefix_string
    · rw [IsAncestor, isDirectory]
      exact List.nil_prefix
  · rw [IsAncestor, ExtendsName, ← pathText_prefix_iff directoryNamed fileNamed,
      string_eq_pathText isDirectory]
    rcases isFile : file.components with _ | ⟨fileName, fileRest⟩
    · have filled := ne_nil_of_isFileName (directoryNamed name (by rw [isDirectory]; simp))
      refine iff_of_false ?_ ?_
      · rw [string, isFile, isDirectory]
        intro starts
        exact filled (List.append_eq_nil_iff.mp
          (List.eq_nil_of_prefix_nil (List.cons_prefix_cons.mp starts).2)).1
      · rw [isDirectory]
        exact fun starts => absurd (List.eq_nil_of_prefix_nil starts) (by nofun)
    · rw [string_eq_pathText isFile, isFile]

/-- A path is not both below a directory and below an entry next to it. -/
theorem not_isAncestor_of_extendsName (longer : ExtendsName directory file) :
    ¬ IsAncestor directory file := by
  obtain ⟨parent, name, more, rest, some, isDirectory, isFile⟩ := longer
  rw [IsAncestor, isDirectory, isFile, List.prefix_append_right_inj]
  intro starts
  have same := (List.cons_prefix_cons.mp starts).1
  exact some (List.append_right_eq_self.mp same.symm)

end CanonicalPath

namespace StaticFiles

variable {httpDate : Int → Text} {files : FileSystem} {static : StaticFiles}
  {request : HttpRequest} {response : HttpResponse} {file : CanonicalPath}

theorem serve_file {resolved : CanonicalPath} {stat : FileStat} :
    (serve httpDate files static request resolved stat response).file = some resolved := by
  unfold serve
  dsimp only
  split_ifs
  · rfl
  · rfl
  · rfl
  · split <;> rfl

/-- A response has contents or metadata of a file only if its path passes the comparison. -/
theorem process_file (sent : (process httpDate files static request response).file = some file) :
    static.resolvedRoot <+: file.string := by
  unfold process at sent
  split_ifs at sent
  split at sent
  · cases sent
  · split_ifs at sent with outside irregular
    split at sent
    · cases sent
    · rw [serve_file, Option.some.injEq] at sent
      subst sent
      exact List.prefix_iff_eq_take.mpr (not_not.mp outside).symm

/-- A file of which something is sent is below the resolved root exactly if it is not below an
entry next to the root whose name goes on after the name of the root. -/
theorem static_file_inside_iff {rootFiles : FileSystem} {opts : StaticFilesOptions}
    {root : CanonicalPath} (resolved : rootFiles.canonical opts.root = some root)
    (sent : (process httpDate files (ofOptions rootFiles opts) request response).file =
      some file) :
    root.IsAncestor file ↔ ¬ root.ExtendsName file := by
  have passes := process_file sent
  have isRoot : (ofOptions rootFiles opts).resolvedRoot = root.string := by
    rw [ofOptions, resolved]
    rfl
  rw [isRoot, CanonicalPath.string_prefix_iff] at passes
  constructor
  · exact fun inside longer => CanonicalPath.not_isAncestor_of_extendsName longer inside
  · exact passes.resolve_right

/-- `/srv/www`. -/
def wwwRoot : CanonicalPath := ⟨[ascii "srv", ascii "www"], by decide⟩

/-- `/srv/www/a.txt`. -/
def insideFile : CanonicalPath := ⟨[ascii "srv", ascii "www", ascii "a.txt"], by decide⟩

/-- `/srv/www-secret/key`. -/
def siblingFile : CanonicalPath := ⟨[ascii "srv", ascii "www-secret", ascii "key"], by decide⟩

/-- A root with a file and a directory next to it. -/
def wwwFiles : FileSystem where
  isDirectory path := path = ascii "/srv/www"
  isRegularFile path := path = insideFile.string || path = siblingFile.string
  canonical path :=
    if path = ascii "/srv/www" then some wwwRoot
    else if path = ascii "/srv/www/a.txt" then some insideFile
    else if path = ascii "/srv/www/../www-secret/key" then some siblingFile
    else none
  stat _ := some ⟨6, 0⟩
  contents path :=
    if path = siblingFile.string then some (ascii "secret") else some (ascii "public")

theorem static_file_inside_iff_public :
    (process (fun _ => []) wwwFiles (ofOptions wwwFiles { root := ascii "/srv/www" })
      { method := .get, path := ascii "/a.txt" } {}).file = some insideFile ∧
      wwwRoot.IsAncestor insideFile ∧ ¬ wwwRoot.ExtendsName insideFile := by
  have sent : (process (fun _ => []) wwwFiles (ofOptions wwwFiles { root := ascii "/srv/www" })
      { method := .get, path := ascii "/a.txt" } {}).file = some insideFile := rfl
  have inside : wwwRoot.IsAncestor insideFile := by decide
  exact ⟨sent, inside, (static_file_inside_iff rfl sent).mp inside⟩

theorem static_file_outside :
    wwwFiles.canonical (ascii "/srv/www") = some wwwRoot ∧
      (process (fun _ => []) wwwFiles (ofOptions wwwFiles { root := ascii "/srv/www" })
        { method := .get, path := ascii "/../www-secret/key" } {}).response.body =
          ascii "secret" ∧
      (process (fun _ => []) wwwFiles (ofOptions wwwFiles { root := ascii "/srv/www" })
        { method := .get, path := ascii "/../www-secret/key" } {}).file = some siblingFile ∧
      ¬ wwwRoot.IsAncestor siblingFile :=
  ⟨rfl, by decide, rfl, by decide⟩

end StaticFiles

end UringServer.Web
