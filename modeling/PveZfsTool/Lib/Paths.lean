import PveZfsTool.Lib.Text

/-!
# Paths as the file system resolves them

A path is text with `/` between its components.  The file system passes over
empty components and over `.`, goes one directory up at `..`, and stays at the
root there.  `resolve` is the list of names a path leads through from the
root.  Symbolic links are not followed.

`walk_append` and `resolve_slash` resolve a path part by part.
-/

namespace Paths

open Text

/-- The directory that one component leads to. -/
def enter (dir : List Str) (c : Str) : List Str :=
  if c = [] ∨ c = "." then dir
  else if c = ".." then dir.dropLast
  else dir ++ [c]

/-- The directory that the components lead to, one after the other. -/
def walk (dir cs : List Str) : List Str := cs.foldl enter dir

/-- The names that a path leads through from the root. -/
def resolve (p : Str) : List Str := walk [] (splitOn '/' p)

/-! ## `posixpath` -/

/-- One component of `normpath`.  `rooted` paths do not go above the root,
and `comps` are the components so far, the last one first. -/
def normStep (rooted : Bool) (comps : List Str) (c : Str) : List Str :=
  if c = [] ∨ c = "." then comps
  else if c ≠ ".." ∨ (rooted = false ∧ comps = []) ∨ comps.head? = some ".." then c :: comps
  else comps.drop 1

/-- `posixpath.normpath`.  Two slashes at the start are kept. -/
def normpath (p : Str) : Str :=
  let slashes : Str :=
    if startsWith p "//" && !startsWith p "///" then "//" else if startsWith p "/" then "/" else []
  let q := slashes ++ join "/" ((splitOn '/' p).foldl (normStep (slashes != [])) []).reverse
  if q = [] then "." else q

/-- `posixpath.dirname` -/
def dirname (p : Str) : Str :=
  let head := (p.reverse.dropWhile (· ≠ '/')).reverse
  if head.all (· = '/') then head else (head.reverse.dropWhile (· = '/')).reverse

/-! ## Walking -/

@[simp] theorem walk_nil {dir : List Str} : walk dir [] = dir := rfl

@[simp] theorem walk_cons {dir cs : List Str} {c : Str} :
    walk dir (c :: cs) = walk (enter dir c) cs := rfl

theorem walk_append {dir cs ds : List Str} : walk dir (cs ++ ds) = walk (walk dir cs) ds :=
  List.foldl_append

theorem resolve_slash {p q : Str} : resolve (p ++ '/' :: q) = walk (resolve p) (splitOn '/' q) := by
  rw [resolve, splitOn_append, walk_append]
  rfl

/-- A path from the root. -/
theorem resolve_root {p : Str} : resolve ('/' :: p) = resolve p :=
  resolve_slash (p := [])

end Paths
