
set_option autoImplicit false

namespace RegisterVM.FilePath

def isAbsolute (p : String) : Bool := p.startsWith "/"

def cleanParts (rooted : Bool) (parts : List String) : List String :=
  (parts.foldl (fun acc part =>
    if part == "" || part == "." then acc
    else if part == ".." then
      match acc with
      | top :: rest => if top == ".." then ".." :: acc else rest
      | [] => if rooted then [] else [".."]
    else part :: acc) []).reverse

def clean (p : String) : String :=
  let rooted := isAbsolute p
  let parts := cleanParts rooted (p.splitOn "/")
  let body := "/".intercalate parts
  if rooted then "/" ++ body else if body.isEmpty then "." else body

def join (a b : String) : String :=
  if a.isEmpty then clean b else if b.isEmpty then clean a else clean (a ++ "/" ++ b)

def dir (p : String) : String :=
  match (p.splitOn "/").dropLast with
  | [] => "."
  | parts => let d := "/".intercalate parts; clean (if d.isEmpty then "/" else d)

def absolute (cwd p : String) : String := if isAbsolute p then clean p else join cwd p

end RegisterVM.FilePath
