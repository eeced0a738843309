import Cpipe.Library.PosixPath

namespace Cpipe.Server
open Library.PosixPath (Path dotDot append lexicallyNormal extension)

/-! ### The file system -/

inductive FileType where
  | notFound | regular | directory | other
deriving DecidableEq, Repr

/-- What is found at each path, and the content of what can be opened. -/
structure FileSystem where
  status : Path → FileType
  content : Path → Option (List UInt8)

def FileSystem.isDirectory (fs : FileSystem) (path : Path) : Bool := fs.status path == .directory

def FileSystem.isRegularFile (fs : FileSystem) (path : Path) : Bool := fs.status path == .regular

/-! ### Assets -/

def kEditorUrl : List Char := "/editor".toList

/-- The textual checks of `editorAssetPath`: what a URL asks for below the root. -/
def assetRelative (url : List Char) : Option Path :=
  if !kEditorUrl.isPrefixOf url then
    none
  else
    let relative := url.drop kEditorUrl.length
    let relative := if relative = [] ∨ relative = ['/'] then "/index.html".toList else relative
    if relative.head? ≠ some '/' ∨ dotDot <:+: relative then
      none
    else
      some (relative.drop 1)

def editorAssetPath (fs : FileSystem) (root : Path) (url : List Char) : Option Path :=
  match assetRelative url with
  | none => none
  | some relative =>
    let path := lexicallyNormal (append root relative)
    let path := if fs.isDirectory path then append path "index.html".toList else path
    if !fs.isRegularFile path then none else some path

def staticContentType (path : Path) : String :=
  let extension := extension path
  if extension = ".html".toList ∨ extension = ".htm".toList then
    "text/html; charset=utf-8"
  else if extension = ".js".toList then
    "text/javascript; charset=utf-8"
  else if extension = ".css".toList then
    "text/css; charset=utf-8"
  else if extension = ".json".toList then
    "application/json"
  else if extension = ".png".toList then
    "image/png"
  else if extension = ".webp".toList then
    "image/webp"
  else
    "application/octet-stream"

/-- A response: an error, or the content of the file at a path. -/
inductive Response where
  | error (status code message : String)
  | file (path : Path) (contentType : String) (body : List UInt8)

def assetNotFound : Response :=
  .error "404 Not Found" "not_found" "static asset not found"

def staticFileResponse (fs : FileSystem) (root : Path) (url : List Char) : Response :=
  match editorAssetPath fs root url with
  | none => assetNotFound
  | some path =>
    match fs.content path with
    | none => assetNotFound
    | some body => .file path (staticContentType path) body

end Cpipe.Server
