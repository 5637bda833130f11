/-!
# Paths

Names separated by slashes.  Two paths are the same as spelled if their
components are: repeated and trailing slashes do not count, nor does a `.`
unless it comes first.
-/

namespace BitSerial.Path

/-- The parts of a path between slashes, empty ones included. -/
def segments : List Char → List (List Char)
  | [] => [[]]
  | char :: rest =>
      if char = '/' then
        [] :: segments rest
      else
        match segments rest with
        | [] => [[char]]
        | first :: others => (char :: first) :: others

/-- Segments with slashes between them. -/
def join : List (List Char) → List Char
  | [] => []
  | [segment] => segment
  | segment :: rest => segment ++ '/' :: join rest

theorem segments_ne_nil (path : List Char) : segments path ≠ [] := by
  cases path with
  | nil => simp [segments]
  | cons char rest =>
      simp only [segments]
      split
      · simp
      · split <;> simp

/-- Nothing of a path is lost in its segments. -/
theorem join_segments (path : List Char) : join (segments path) = path := by
  induction path with
  | nil => rfl
  | cons char rest ih =>
      simp only [segments]
      split
      · rename_i slash
        match found : segments rest with
        | [] => exact absurd found (segments_ne_nil rest)
        | first :: others =>
            rw [join, ← found, ih, slash]
            · rfl
            · simp
      · match found : segments rest with
        | [] => exact absurd found (segments_ne_nil rest)
        | [first] =>
            rw [found] at ih
            simpa [join] using ih
        | first :: second :: others =>
            rw [found] at ih
            simpa [join] using ih

/-- A step along a path. -/
inductive Component
  /-- The root of all directories. -/
  | root
  /-- The working directory, named as such. -/
  | here
  /-- The directory above. -/
  | up
  /-- Something in the directory. -/
  | named (name : List Char)
  deriving DecidableEq

/-- The component of a segment, if it leads anywhere. -/
def component? (segment : List Char) : Option Component :=
  if segment = [] ∨ segment = ['.'] then none
  else if segment = ['.', '.'] then some .up
  else some (.named segment)

/-- The components of a first segment, with the segments behind it. -/
def leading (first : List Char) (rest : List (List Char)) : List Component :=
  if first = [] ∧ rest ≠ [] then [.root]
  else if first = ['.'] then [.here]
  else (component? first).toList

/-- The components of a path. -/
def components (path : List Char) : List Component :=
  match segments path with
  | [] => []
  | first :: rest => leading first rest ++ rest.filterMap component?

/-- A name up to its last dot.  A dot in front is part of the name. -/
def stem (name : List Char) : List Char :=
  match name.reverse.dropWhile (· ≠ '.') with
  | [] | [_] => name
  | _ :: front => front.reverse

/-- A path with the last dot of its name and all behind it exchanged for an
extension.  A path that ends in no name stays as it is.  Nor does one that would
end in none without its own extension take another: `..a` becomes `..`, the
directory above, unless slashes trail it. -/
def withExtension (extension : List Char) (path : List Char) : List Char :=
  let backward := (segments path).reverse
  match backward.dropWhile fun segment => segment = [] ∨ segment = ['.'] with
  | [] => path
  | name :: front =>
      if name = ['.', '.'] then path
      else if stem name = ['.'] ∧ backward.head? = some name then
        join (['.', '.'] :: front).reverse
      else
        join ((stem name ++ '.' :: extension) :: front).reverse

end BitSerial.Path
