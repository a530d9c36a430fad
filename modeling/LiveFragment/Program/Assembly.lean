import LiveFragment.Parameter.Definition
import LiveFragment.Text.Lines

namespace LiveFragment.Program

open LiveFragment.Text LiveFragment.Parameter

/-- Ends every line with a line feed. -/
def block (lines : List String) : String := String.join (lines.map (· ++ "\n"))

/-- The standard inputs, the channel samplers and the names a program uses for them. -/
def prologue : String :=
  block [
    "#version 450",
    "layout(location = 0) in vec2 v_uv;",
    "layout(location = 0) out vec4 outColor;",
    "",
    "layout(std140, set = 0, binding = 0) uniform StandardInputs \x7b",
    "    vec3 _iResolution;",
    "    float _iTime;",
    "    float _iTimeDelta;",
    "    int _iFrame;",
    "    float _iFrameRate;",
    "    float _iBeat;",
    "    vec4 _iMouse;",
    "    vec4 _iDate;",
    "    vec3 _iChannelResolution[4];",
    "\x7d ubo;",
    "",
    "#define iResolution ubo._iResolution",
    "#define iTime ubo._iTime",
    "#define iTimeDelta ubo._iTimeDelta",
    "#define iFrame ubo._iFrame",
    "#define iFrameRate ubo._iFrameRate",
    "#define iBeat ubo._iBeat",
    "#define iMouse ubo._iMouse",
    "#define iDate ubo._iDate",
    "#define iChannelResolution ubo._iChannelResolution",
    "",
    "layout(set = 1, binding = 0) uniform texture2D deck_channel0_texture;",
    "layout(set = 1, binding = 1) uniform sampler deck_channel0_sampler;",
    "layout(set = 1, binding = 2) uniform texture2D deck_channel1_texture;",
    "layout(set = 1, binding = 3) uniform sampler deck_channel1_sampler;",
    "layout(set = 1, binding = 4) uniform texture2D deck_channel2_texture;",
    "layout(set = 1, binding = 5) uniform sampler deck_channel2_sampler;",
    "layout(set = 1, binding = 6) uniform texture2D deck_channel3_texture;",
    "layout(set = 1, binding = 7) uniform sampler deck_channel3_sampler;",
    "",
    "#define iChannel0 sampler2D(deck_channel0_texture, deck_channel0_sampler)",
    "#define iChannel1 sampler2D(deck_channel1_texture, deck_channel1_sampler)",
    "#define iChannel2 sampler2D(deck_channel2_texture, deck_channel2_sampler)",
    "#define iChannel3 sampler2D(deck_channel3_texture, deck_channel3_sampler)",
    ""]

/-- The entry point: turns the origin to the bottom left and calls the program. -/
def epilogue : String :=
  block [
    "",
    "void main() \x7b",
    "    vec2 fragCoord = vec2(gl_FragCoord.x, iResolution.y - gl_FragCoord.y);",
    "    vec4 color = vec4(0.0);",
    "    mainImage(color, fragCoord);",
    "    outColor = color;",
    "\x7d"]

/-- The parameter block, one member for each definition; a program without parameters has none. -/
def parameterBlock (definitions : List Definition) : String :=
  if definitions.isEmpty then ""
  else
    block <|
      ["layout(std140, set = 0, binding = 1) uniform CustomInputs \x7b"] ++
        definitions.map (fun d => "    " ++ d.declaration) ++ ["\x7d;"]

/-- The whole text, and how its lines divide. -/
structure Assembly where
  text : String
  /-- The number of lines before the own text. -/
  preambleLines : Nat
  /-- The number of lines of the own text. -/
  userLines : Nat
deriving DecidableEq, Repr

namespace Assembly

def preamble (definitions : List Definition) : String := prologue ++ parameterBlock definitions

/-- The own text, ended by a line feed. -/
def body (source : String) : String :=
  if source.toList.getLast? = some '\n' then source else source ++ "\n"

def ofSource (source : String) (definitions : List Definition) : Assembly where
  text := preamble definitions ++ body source ++ epilogue
  preambleLines := (preamble definitions).toList.count '\n'
  userLines := (lines source.toList).length

/-- The line of the own text at a line of the whole text, both counted from one. -/
def userLine? (assembly : Assembly) (line : Nat) : Option Nat :=
  let own := line - assembly.preambleLines
  if assembly.preambleLines ≤ line ∧ 1 ≤ own ∧ own ≤ assembly.userLines then some own else none

end Assembly

end LiveFragment.Program
