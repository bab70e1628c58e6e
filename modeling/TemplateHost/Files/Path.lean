import TemplateHost.Text.Search

/-!
# Paths

A path is a text with slashes between its steps. Normal form drops empty steps and single dots, and
resolves double dots by the step before them; exactly two leading slashes are kept as two.
-/
namespace TemplateHost.Path
open Text

def steps (p : String) : List String := (splitAt '/' p.toList).map String.ofList

def isAbsolute (p : String) : Bool := p.toList.head? = some '/'

/-- The leading slashes that mean something: none, one or two. -/
def root (p : String) : String :=
  match p.toList with
  | '/' :: '/' :: '/' :: _ => "/"
  | '/' :: '/' :: _ => "//"
  | '/' :: _ => "/"
  | _ => ""

/-- Adds a step to normal steps, given last one first. -/
def pushStep (rooted : Bool) (done : List String) (step : String) : List String :=
  if step = "" ∨ step = "." then done
  else if step = ".." then
    match done with
    | [] => if rooted then [] else [".."]
    | last :: before => if last = ".." then ".." :: done else before
  else step :: done

def normalSteps (rooted : Bool) (steps : List String) : List String :=
  (steps.foldl (pushStep rooted) []).reverse

def orDot (p : String) : String := if p = "" then "." else p

def normalize (p : String) : String :=
  orDot (root p ++ Text.join "/" (normalSteps (isAbsolute p) (steps p)))

/-- The form in which files are named in reports about reading them: double dots stay. -/
def tidy (p : String) : String :=
  orDot (root p ++ Text.join "/" ((steps p).filter fun s => s ≠ "" ∧ s ≠ "."))

/-- The system takes no path with a null character in it. -/
def hasNull (p : String) : Bool := p.toList.contains '\x00'

def endsInSlash (p : String) : Bool := p.toList.getLast? = some '/'

/-- A path seen from another one; an absolute path stands alone. -/
def under (base p : String) : String :=
  if isAbsolute p then p
  else if base = "" ∨ endsInSlash base then base ++ p
  else base ++ "/" ++ p

def absolute (cwd p : String) : String := normalize (under cwd p)

/-- The characters after the last slash. -/
def baseChars (p : List Char) : List Char := (p.reverse.takeWhile (· ≠ '/')).reverse

def base (p : String) : String := String.ofList (baseChars p.toList)

/-- What stands before the last slash, without the slashes at its end unless it is all slashes. -/
def directory (p : String) : String :=
  let head := (p.toList.reverse.dropWhile (· ≠ '/')).reverse
  if head.all (· = '/') then String.ofList head
  else String.ofList (head.reverse.dropWhile (· = '/')).reverse

def dropCommon : List String → List String → List String × List String
  | a :: as, b :: bs => if a = b then dropCommon as bs else (a :: as, b :: bs)
  | as, bs => (as, bs)

def relative (cwd p start : String) : String :=
  let parts := fun q => (steps (absolute cwd q)).filter (· ≠ "")
  let (up, down) := dropCommon (parts start) (parts p)
  orDot (Text.join "/" (up.map (fun _ => "..") ++ down))

/-- One path below the other, even where a part is absolute. -/
def nest (parts : List String) : String :=
  normalize (Text.join "/" (parts.filter (· ≠ "")))

end TemplateHost.Path
