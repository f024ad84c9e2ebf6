import PortableCodex.Js.Text

/-!
POSIX paths as `node:path` computes them.
-/

namespace PortableCodex.Js

def isSlash (u : UInt16) : Bool := u = 47

/-- `path.isAbsolute(path)` -/
def isAbsolute (path : JsString) : Bool := path.head? = some 47

/-- One more segment of a path being resolved; the segments read so far are kept last first. -/
def resolveSegment (segments : List JsString) (segment : JsString) : List JsString :=
  if segment = [] ∨ segment = js "." then segments
  else if segment = js ".." then segments.tail
  else segment :: segments

/-- `path.resolve(path)` of an absolute path. -/
def resolveAbsolute (path : JsString) : JsString :=
  let segments := (path.splitOn 47).foldl resolveSegment []
  47 :: List.intercalate [47] segments.reverse

/-- `path.dirname(path)` -/
def dirname (path : JsString) : JsString :=
  let directory := (path.reverse.dropWhile isSlash).dropWhile fun u => !isSlash u
  match directory with
  | [] => if isAbsolute path then js "/" else js "."
  | [_] => js "/"
  | [_, first] => if isSlash first then js "//" else [first]
  | _ :: rest => rest.reverse

/-- `path.basename(path)` -/
def basename (path : JsString) : JsString :=
  ((path.reverse.dropWhile isSlash).takeWhile fun u => !isSlash u).reverse

example : resolveAbsolute (js "/a//b/./c/../d/") = js "/a/b/d" := by decide
example : dirname (js "/a/b/c") = js "/a/b" ∧ basename (js "/a/b/c") = js "c" := by decide

end PortableCodex.Js
