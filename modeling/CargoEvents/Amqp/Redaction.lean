/-! # Broker addresses without their password

An address is shown with `***` for the password: the text between the first colon and the
first `@` after `://`. Without these marks it is shown as it is.
-/
namespace CargoEvents.Amqp

/-- What stands before the first occurrence of `mark`, and what after it. -/
def splitAtFirst (mark : List Char) : List Char → Option (List Char × List Char)
  | [] => if mark = [] then some ([], []) else none
  | c :: rest =>
    if mark.isPrefixOf (c :: rest) then some ([], (c :: rest).drop mark.length)
    else (splitAtFirst mark rest).map fun (before, after) => (c :: before, after)

def redactChars (uri : List Char) : Option (List Char) := do
  let (scheme, rest) ← splitAtFirst [':', '/', '/'] uri
  let (credentials, host) ← splitAtFirst ['@'] rest
  let (user, _) ← splitAtFirst [':'] credentials
  return scheme ++ [':', '/', '/'] ++ user ++ [':', '*', '*', '*', '@'] ++ host

def redact (uri : String) : String := (redactChars uri.toList).elim uri String.ofList

end CargoEvents.Amqp
