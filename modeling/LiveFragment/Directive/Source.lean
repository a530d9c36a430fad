import LiveFragment.Directive.Param
import LiveFragment.Directive.Texture
import LiveFragment.Text.Lines

namespace LiveFragment.Directive

open LiveFragment.Text LiveFragment.Parameter

/-- The directives of a text: definitions in the order of their lines, with different names, and
texture directives in the order of their channels. -/
structure Directives where
  params : List Definition
  textures : List TextureDirective
deriving Repr, Inhabited

/-- A line that may hold a directive, by the first word of its comment. -/
inductive Candidate
  | param
  | texture
  | other
deriving DecidableEq, Repr

/-- Looks at the first word of a comment. Any number of slashes starts a comment. -/
def candidate (line : List Char) : Candidate :=
  let start := trimStart line
  if !slashes.isPrefixOf start then .other
  else
    let comment := trimStart (start.dropWhile (· == '/'))
    if paramKeyword.toList.isPrefixOf comment then .param
    else if textureKeyword.toList.isPrefixOf comment then .texture
    else .other

/-- What a line adds: a definition or a texture directive. -/
def lineDirective (line : List Char) : Option (Definition ⊕ TextureDirective) :=
  match candidate line with
  | .param => (definition? line).map .inl
  | .texture => (texture? line).map .inr
  | .other => none

namespace Directives

/-- Adds what a line declares. The first definition of a name is kept; the last texture directive
of a channel wins. -/
def add (found : Directives) : Definition ⊕ TextureDirective → Directives
  | .inl definition =>
    if found.params.any (·.name == definition.name) then found
    else { found with params := found.params ++ [definition] }
  | .inr directive =>
    { found with
      textures := found.textures.filter (·.channel < directive.channel) ++
        directive :: found.textures.filter (directive.channel < ·.channel) }

def ofChars (text : List Char) : Directives :=
  ((lines text).filterMap lineDirective).foldl add ⟨[], []⟩

def ofSource (source : String) : Directives := ofChars source.toList

def param? (directives : Directives) (name : String) : Option Definition :=
  directives.params.find? (·.name == name)

def textureFor? (directives : Directives) (channel : Nat) : Option TextureSource :=
  (directives.textures.find? (·.channel == channel)).map (·.source)

end Directives

end LiveFragment.Directive
