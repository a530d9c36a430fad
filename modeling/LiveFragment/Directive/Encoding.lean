import LiveFragment.Directive.Texture
import LiveFragment.Parameter.Encoding

namespace LiveFragment.Directive

open LiveFragment.Document

namespace TextureSource

def toDocument : TextureSource → Document
  | .builtin pattern => .table [("kind", .text "builtin"), ("pattern", .text pattern.name)]
  | .file name => .table [("kind", .text "file"), ("name", .text name)]
  | .microphone size => .table [("kind", .text "microphone"), ("fft_size", .integer size)]

def ofDocument? : Document → Option TextureSource
  | .table fields => do
    let kind ← (← fieldOnce? "kind" fields).string?
    match kind with
    | "builtin" =>
      ((← fieldOnce? "pattern" fields).word? .json Pattern.ofName?).map .builtin
    | "file" => (← fieldOnce? "name" fields).string?.map .file
    | "microphone" => ((← fieldOnce? "fft_size" fields).wordOf? 64).map .microphone
    | _ => none
  | _ => none

end TextureSource

namespace TextureDirective

def toDocument (directive : TextureDirective) : Document :=
  .table [("channel", .integer directive.channel), ("source", directive.source.toDocument)]

def ofDocument? : Document → Option TextureDirective
  | .table fields => do
    let channel ← (← fieldOnce? "channel" fields).wordOf? 64
    let source ← TextureSource.ofDocument? (← fieldOnce? "source" fields)
    some ⟨channel, source⟩
  | _ => none

end TextureDirective

end LiveFragment.Directive
