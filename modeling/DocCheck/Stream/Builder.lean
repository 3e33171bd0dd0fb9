import DocCheck.Stream.Basic

/-!
# Building a token stream

A builder appends tokens and keeps count of the source line. A documentation comment is appended
as one token for each physical line, which is the form in which tokenisers deliver it.
-/

namespace DocCheck

/-- A stream under construction and the line at which its next token starts. -/
structure Builder where
  eol : Text := "\n"
  tokens : List Token := []
  line : Nat := 1
  deriving DecidableEq, Repr

namespace Builder

/-- Uses another line separator from here on. -/
def withEol (b : Builder) (eol : Text) : Builder := { b with eol }

/-- Appends a token; the line moves on by the line separators in its text. -/
def push (b : Builder) (kind : Kind) (text : Text) : Builder :=
  { b with
    tokens := b.tokens ++ [⟨kind, text, b.line⟩]
    line := b.line + text.count b.eol }

/-- Appends an open tag and its line end. -/
def openTag (b : Builder) : Builder := b.push .openTag ("<?php" ++ b.eol)

/-- Appends a close tag. -/
def closeTag (b : Builder) : Builder := b.push .closeTag "?>"

/-- Appends a line end. -/
def newline (b : Builder) : Builder := b.push .whitespace b.eol

/-- Appends `n` line ends. -/
def newlines (b : Builder) : Nat → Builder
  | 0 => b
  | n + 1 => b.newline.newlines n

/-- Appends a documentation comment, one token for each physical line. -/
def docComment (b : Builder) (text : Text) : Builder :=
  (text.lines b.eol).foldl (·.push .docComment ·) b

/-- Appends the declaration of a class without members. -/
def classDeclaration (b : Builder) (name : Text) : Builder :=
  (((((b.push .classWord "class").push .whitespace " ").push .other name).push .whitespace
    " ").push .other "\x7b\x7d").newline

/-- The finished stream. -/
def build (b : Builder) : Stream := ⟨b.eol, b.tokens⟩

end Builder

end DocCheck
