import DocCheck.Text.Basic

/-!
# Authors

An author is written `Display Name <local@domain.tld>`. The recogniser cuts the text at the first
`<`, at the `@` and at the last dot, each of which can only be in one place, and tests the parts.
-/

namespace DocCheck.Author

/-- The characters at the ends of the local part of an address. -/
def isLocalEnd (c : Char) : Bool := c.isAlphanum || c == '-' || c == '_' || c == '+'

/-- The local part of an address: at least two characters, and no dot at either end. -/
def isLocal (t : Text) : Bool :=
  2 ≤ t.length && t.head?.any isLocalEnd && t.getLast?.any isLocalEnd &&
    t.all fun c => isLocalEnd c || c == '.'

/-- The domain of an address: at least two characters, with a letter or digit at either end. -/
def isDomain (t : Text) : Bool :=
  2 ≤ t.length && t.head?.any Char.isAlphanum && t.getLast?.any Char.isAlphanum &&
    t.all fun c => c.isAlphanum || c == '-' || c == '_' || c == '.'

/-- A top-level domain: two to seven letters. -/
def isTopLevel (t : Text) : Bool := 2 ≤ t.length && t.length ≤ 7 && t.all Char.isAlpha

/-- What follows the `@` of an address: a domain, a dot and a top-level domain. -/
def isHost (t : Text) : Bool :=
  isTopLevel (t.reverse.takeWhile (· != '.')).reverse &&
    match t.reverse.dropWhile (· != '.') with
    | '.' :: domain => isDomain domain.reverse
    | _ => false

/-- An address. -/
def isAddress (t : Text) : Bool :=
  isLocal (t.takeWhile (· != '@')) &&
    match t.dropWhile (· != '@') with
    | '@' :: host => isHost host
    | _ => false

/-- A display name that ends in white space, and an address in angle brackets. As a regular
expression this is
```
^([^<]*)\s+<([0-9a-zA-Z\-_+][0-9a-zA-Z\-_+.A-Za-z0-9_]*[0-9a-zA-Z\-_+]
@[0-9a-zA-Z][-.A-Za-z0-9_]*[0-9a-zA-Z]\.[a-zA-Z]{2,7})>$
```
in one piece, where `\s` is any white space. -/
def accepts (t : Text) : Bool :=
  (t.takeWhile (· != '<')).getLast?.any isSpace &&
    match t.dropWhile (· != '<') with
    | '<' :: rest => rest.getLast? == some '>' && isAddress rest.dropLast
    | _ => false

end DocCheck.Author
