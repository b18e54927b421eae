/-
  The Mersenne Twister with period `2 ^ 19937 - 1`: a state of 624 words of 32 bits, renewed as a
  whole when it is used up. Doubles in `[0, 1)` take 53 bits from two words.
-/

namespace ApertureSynthesis.Random

/-- State of the generator. -/
structure Twister where
  /-- The 624 words. -/
  words : Array UInt32
  /-- Next word to be used. -/
  position : Nat

namespace Twister

/-- Number of words of the state. -/
def size : Nat := 624

/-- The state that a seed stands for. -/
def ofSeed (seed : UInt32) : Twister :=
  let words := (List.range (size - 1)).foldl (fun (ws : Array UInt32) i =>
    let last := ws.getD i 0
    ws.push ((1812433253 : UInt32) * (last ^^^ (last >>> 30)) + UInt32.ofNat (i + 1))) #[seed]
  ⟨words, size⟩

/-- The word that replaces one whose upper bit is that of `high` and lower bits those of `low`. -/
def twist (far high low : UInt32) : UInt32 :=
  let y := (high &&& 0x80000000) ||| (low &&& 0x7fffffff)
  far ^^^ (y >>> 1) ^^^ (if y &&& 1 = 1 then 0x9908b0df else 0)

/-- All words renewed, from the first on. -/
def renew (t : Twister) : Twister :=
  let words := (List.range size).foldl (fun (ws : Array UInt32) k =>
    ws.setIfInBounds k (twist (ws.getD ((k + 397) % size) 0) (ws.getD k 0)
      (ws.getD ((k + 1) % size) 0))) t.words
  ⟨words, 0⟩

/-- Spreads the bits of a word. -/
def temper (y : UInt32) : UInt32 :=
  let y := y ^^^ (y >>> 11)
  let y := y ^^^ ((y <<< 7) &&& 0x9d2c5680)
  let y := y ^^^ ((y <<< 15) &&& 0xefc60000)
  y ^^^ (y >>> 18)

/-- The next word. -/
def next (t : Twister) : UInt32 × Twister :=
  let t := if t.position < size then t else t.renew
  (temper (t.words.getD t.position 0), { t with position := t.position + 1 })

/-- The next double in `[0, 1)`. -/
def nextDouble (t : Twister) : Float × Twister :=
  let (a, t) := t.next
  let (b, t) := t.next
  let high := (a >>> 5).toNat
  let low := (b >>> 6).toNat
  (Float.ofNat (high * 67108864 + low) / 9007199254740992.0, t)

/-- The next `n` doubles, uniform between two bounds. -/
def uniform (low high : Float) : Nat → Twister → List Float × Twister
  | 0, t => ([], t)
  | n + 1, t =>
    let (d, t) := t.nextDouble
    let (rest, t) := uniform low high n t
    ((low + (high - low) * d) :: rest, t)

end Twister

end ApertureSynthesis.Random
