import ComponentMarkdown.Url.Host

namespace ComponentMarkdown.Url

/-- An address without the blanks and controls around it, and without tabs and line ends in it. -/
def cleaned (s : List Char) : List Char :=
  let outer := fun (c : Char) => c.toNat ≤ 0x20
  let inside := ((s.dropWhile outer).reverse.dropWhile outer).reverse
  inside.filter fun c => c ≠ '\t' && c ≠ '\n' && c ≠ '\r'

/-- What follows the scheme `http` or `https` and its colon. -/
def afterScheme? (s : List Char) : Option (List Char) :=
  let scheme := String.ofList ((s.takeWhile (· ≠ ':')).map Char.toLower)
  match s.dropWhile (· ≠ ':') with
  | ':' :: rest => if scheme = "http" ∨ scheme = "https" then some rest else none
  | _ => none

def isSlash (c : Char) : Bool := c = '/' || c = '\\'

/-- The characters that end the part of an address that names the host. -/
def endsAuthority (c : Char) : Bool := isSlash c || c = '?' || c = '#'

/-- The part that names the host, cut behind the last at sign, if it has one. -/
def afterUser (authority : List Char) : List Char :=
  (authority.reverse.takeWhile (· ≠ '@')).reverse

/-- Cuts a host from the number behind it, at the first colon that is not in brackets. -/
def splitService (bracketed : Bool) : List Char → List Char × Option (List Char)
  | [] => ([], none)
  | c :: rest =>
    if c = ':' && !bracketed then ([], some rest)
    else
      let (host, number) := splitService (if c = '[' then true else if c = ']' then false else bracketed) rest
      (c :: host, number)

/-- Whether a text is the number of a service, in sixteen bits. It may be empty. -/
def isServiceNumber (s : List Char) : Bool := (numeral? 10 s).any (· < 65536)

/-- Whether a text is an absolute address of the web: the scheme `http` or `https`, any number of slashes, the
name of a user if there is one, a host, and the number of a service. What follows may be anything. -/
def isWeb (s : String) : Bool :=
  match afterScheme? (cleaned s.toList) with
  | none => false
  | some rest =>
    let authority := (rest.dropWhile isSlash).takeWhile (!endsAuthority ·)
    let (host, number) := splitService false (afterUser authority)
    isHost host && number.all isServiceNumber

end ComponentMarkdown.Url
