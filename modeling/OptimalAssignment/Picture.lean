/-!
Pictures: a colour mode, a width, a height, and the channel values of each pixel in row-major order.
-/
namespace OptimalAssignment

inductive ColorMode where
  | rgb
  | rgba
  | grey
  | greyAlpha
  | bilevel
deriving Repr, DecidableEq

namespace ColorMode

def name : ColorMode → String
  | rgb => "RGB"
  | rgba => "RGBA"
  | grey => "L"
  | greyAlpha => "LA"
  | bilevel => "1"

def ofName? (s : String) : Option ColorMode :=
  [rgb, rgba, grey, greyAlpha, bilevel].find? (·.name == s)

end ColorMode

structure Picture where
  mode : ColorMode
  width : Nat
  height : Nat
  pixels : List (List Nat)
deriving Repr, DecidableEq

namespace Picture

/-- The picture filled with a pattern of pixels, repeated as often as it takes. -/
def ofPattern (mode : ColorMode) (width height : Nat) (pattern : List (List Nat)) : Picture :=
  let pixel (i : Nat) : List Nat := pattern[i % pattern.length]?.getD []
  ⟨mode, width, height, (List.range (width * height)).map pixel⟩

/-- The red, green and blue values of a pixel. Alpha is dropped, grey counts three times, and of two
levels the upper one is full light. -/
def colorsOf (mode : ColorMode) (channels : List Nat) : List Nat :=
  let level := channels.headD 0
  match mode with
  | .rgb | .rgba => (List.range 3).map fun c => channels[c]?.getD 0
  | .grey | .greyAlpha => List.replicate 3 level
  | .bilevel => List.replicate 3 (if level = 0 then 0 else 255)

def colors (p : Picture) : List (List Nat) :=
  p.pixels.map (colorsOf p.mode)

end Picture

end OptimalAssignment
