/-!
Random words from a twisted shift register of 624 words of 32 bits. The register is filled from a
seed by a linear recurrence; it is renewed as a whole after 624 words, and each word is tempered
before it is handed out.
-/
namespace OptimalAssignment.Random

/-- The register and the number of words handed out since it was renewed. -/
structure Twister where
  register : Array UInt32
  used : Nat

namespace Twister

/-- The words that follow a first one in the filling of the register. -/
def fill : Nat → Nat → UInt32 → List UInt32
  | 0, _, _ => []
  | count + 1, i, word =>
    let next := (1812433253 : UInt32) * (word ^^^ (word >>> 30)) + UInt32.ofNat i
    next :: fill count (i + 1) next

/-- The register for a seed; its first words are due to be renewed. -/
def ofSeed (seed : UInt32) : Twister :=
  ⟨(seed :: fill 623 1 seed).toArray, 624⟩

/-- The word that takes a place of the register. -/
def renewed (register : Array UInt32) (i : Nat) : UInt32 :=
  let word (k : Nat) : UInt32 := register[k % 624]?.getD 0
  let mixed := (word i &&& 0x80000000) ||| (word (i + 1) &&& 0x7FFFFFFF)
  let twist : UInt32 := if mixed &&& 1 = 0 then 0 else 0x9908B0DF
  word (i + 397) ^^^ (mixed >>> 1) ^^^ twist

/-- Renew the register place by place; later places see the new words. -/
def renew (register : Array UInt32) : Array UInt32 :=
  (List.range 624).foldl (fun r i => r.setIfInBounds i (renewed r i)) register

def temper (y : UInt32) : UInt32 :=
  let y := y ^^^ (y >>> 11)
  let y := y ^^^ ((y <<< 7) &&& 0x9D2C5680)
  let y := y ^^^ ((y <<< 15) &&& 0xEFC60000)
  y ^^^ (y >>> 18)

def next (t : Twister) : UInt32 × Twister :=
  let t := if t.used < 624 then t else ⟨renew t.register, 0⟩
  (temper (t.register[t.used]?.getD 0), { t with used := t.used + 1 })

end Twister

end OptimalAssignment.Random
