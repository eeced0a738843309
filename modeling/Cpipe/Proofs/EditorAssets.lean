import Cpipe.Server.EditorAssets

namespace Cpipe.Proofs.EditorAssets
open Server (FileSystem assetRelative editorAssetPath staticFileResponse)
open Library.PosixPath

variable {fs : FileSystem} {cwd : Directory} {root path : Path} {url : List Char}

/-! ### What a URL can ask for -/

/-- What passes the textual checks never goes up. -/
theorem relative_not_up {relative : Path} (h : assetRelative url = some relative) :
    dotDot ∉ names relative := by
  intro hmem
  obtain ⟨_,_,hpart⟩ := mem_names hmem
  unfold assetRelative at h
  split at h
  · cases h
  · dsimp only at h
    generalize (if url.drop Server.kEditorUrl.length = [] ∨
      url.drop Server.kEditorUrl.length = ['/'] then "/index.html".toList
      else url.drop Server.kEditorUrl.length) = asked at h
    split at h
    · cases h
    case isFalse hbad =>
      cases h
      exact hbad (.inr (hpart.trans (List.drop_suffix 1 asked).isInfix))

/-- A path that is returned: what was asked for, or the index in that directory. -/
theorem asset_cases (h : editorAssetPath fs root url = some path) :
    ∃ relative, assetRelative url = some relative ∧
      (path = lexicallyNormal (append root relative) ∨
        path = append (lexicallyNormal (append root relative)) "index.html".toList) := by
  unfold editorAssetPath at h
  cases hrel : assetRelative url with
  | none =>
    rw [hrel] at h
    cases h
  | some relative =>
    rw [hrel] at h
    dsimp only at h
    split_ifs at h with hdir hreg hreg
    · exact ⟨relative,rfl,.inr (Option.some.inj h).symm⟩
    · exact ⟨relative,rfl,.inl (Option.some.inj h).symm⟩

/-- A returned path is inside wherever the path that was asked for is. -/
theorem asset_inside (h : editorAssetPath fs root url = some path)
    (hasked : ∀ relative, assetRelative url = some relative →
      Inside cwd root (append root relative)) : Inside cwd root path := by
  obtain ⟨relative,hrel,hpath⟩ := asset_cases h
  have hnormal : Inside cwd root (lexicallyNormal (append root relative)) := by
    rw [Inside, resolve_lexicallyNormal]
    exact hasked relative hrel
  rcases hpath with rfl | rfl
  · exact hnormal
  · exact inside_append hnormal (by decide) (by decide)

theorem served_is_asset {served : Path} {contentType : String} {body : List UInt8}
    (h : staticFileResponse fs root url = .file served contentType body) :
    editorAssetPath fs root url = some served := by
  unfold staticFileResponse at h
  cases hasset : editorAssetPath fs root url with
  | none =>
    rw [hasset] at h
    cases h
  | some path =>
    rw [hasset] at h
    dsimp only at h
    cases hbody : fs.content path with
    | none =>
      rw [hbody] at h
      cases h
    | some content =>
      rw [hbody] at h
      cases h
      rfl

/-! ### Confinement -/

/-- On every file system a URL leads only to paths inside the root, and only such
files are served. -/
structure Confined (cwd : Directory) (root : Path) (url : List Char) : Prop where
  asset : ∀ fs path, editorAssetPath fs root url = some path → Inside cwd root path
  served : ∀ fs path contentType body,
    staticFileResponse fs root url = .file path contentType body → Inside cwd root path

/-- A file system with one file. -/
def single (path : Path) : FileSystem where
  status := fun p => if p = path then .regular else .notFound
  content := fun _ => none

theorem single_asset {relative : Path} (h : assetRelative url = some relative) :
    editorAssetPath (single (lexicallyNormal (append root relative))) root url =
      some (lexicallyNormal (append root relative)) := by
  simp [editorAssetPath, h, single, FileSystem.isDirectory, FileSystem.isRegularFile]

/-- A URL is confined exactly when it asks for nothing below the root by an absolute
path that is not itself inside the root: the root is dropped in front of such a path. -/
theorem assets_confined_iff (cwd : Directory) (root : Path) (url : List Char) :
    Confined cwd root url ↔ ∀ relative, assetRelative url = some relative →
      isAbsolute relative = true → Inside cwd root relative := by
  constructor
  · intro h relative hrel habs
    have hinside := h.asset _ _ (single_asset hrel)
    rwa [Inside, resolve_lexicallyNormal, append_of_absolute habs] at hinside
  · intro h
    have hasked : ∀ relative, assetRelative url = some relative →
        Inside cwd root (append root relative) := by
      intro relative hrel
      cases habs : isAbsolute relative with
      | true =>
        rw [append_of_absolute habs]
        exact h relative hrel habs
      | false => exact inside_append List.prefix_rfl habs (relative_not_up hrel)
    exact {
      asset := fun fs path hpath => asset_inside hpath hasked
      served := fun fs path contentType body hserved =>
        asset_inside (served_is_asset hserved) hasked }

/-- Two slashes behind the route name any file of the machine. -/
theorem password_file_served :
    ¬ Confined ⟨['/'],rfl⟩ "/srv/editor".toList "/editor//etc/passwd".toList := by
  intro h
  have hinside := h.asset (single "/etc/passwd".toList) "/etc/passwd".toList (by decide)
  exact absurd hinside (by
    unfold Inside
    decide)

end Cpipe.Proofs.EditorAssets
