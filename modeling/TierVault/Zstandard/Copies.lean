import TierVault.Zstandard.Sequences

/-!
The search for copies in content.

Two tables tell where eight bytes, and where five bytes, occurred last. A place is first compared with
the last distance, a byte further on; then with where its eight bytes occurred, and where its five
did. The longer nothing is found, the more places are left out. Nothing hangs on what is found: frames
are unpacked again before they are handed out.
-/

namespace TierVault.Zstandard

/-- Where bytes occurred last, by a digest of them. Zero stands for nowhere, so what begins the content
is never found again. -/
structure Places where
  long : Array Nat
  short : Array Nat

namespace Places

def start : Places := ⟨Array.replicate 131072 0, Array.replicate 65536 0⟩

/-- The eight bytes from a place on, the first of them lowest. -/
def word (content : Array UInt8) (place : Nat) : UInt64 :=
  let byte (index : Nat) : UInt64 := (content.getD (place + index) 0).toUInt64
  byte 0 ||| byte 1 <<< 8 ||| byte 2 <<< 16 ||| byte 3 <<< 24 ||| byte 4 <<< 32 |||
    byte 5 <<< 40 ||| byte 6 <<< 48 ||| byte 7 <<< 56

def longSlot (word : UInt64) : Nat := ((word * 0xCF1BBCDCB7A56463) >>> 47).toNat

def shortSlot (word : UInt64) : Nat := (((word <<< 24) * 889523592379) >>> 48).toNat

def setLong (places : Places) (word : UInt64) (place : Nat) : Places :=
  { places with long := places.long.setIfInBounds (longSlot word) place }

def setShort (places : Places) (word : UInt64) (place : Nat) : Places :=
  { places with short := places.short.setIfInBounds (shortSlot word) place }

def long? (places : Places) (word : UInt64) : Nat := places.long.getD (longSlot word) 0

end Places

/-- Content up to `stop`, of which what comes before `lowest` is out of reach. -/
structure Reach where
  content : Array UInt8
  lowest : Nat
  stop : Nat

namespace Reach

/-- How many bytes from the two places on agree. -/
def agreement (reach : Reach) (earlier later : Nat) : Nat :=
  go (reach.stop - later) 0
where
  go : (bound agreed : Nat) → Nat
    | 0, agreed => agreed
    | bound + 1, agreed =>
      if reach.content.getD (earlier + agreed) 0 == reach.content.getD (later + agreed) 0 then
        go bound (agreed + 1)
      else agreed

/-- How many bytes before the two places agree, at most `bound`. -/
def agreementBefore (reach : Reach) (earlier later : Nat) : (bound : Nat) → Nat
  | 0 => 0
  | bound + 1 =>
    if reach.lowest < earlier ∧
        reach.content.getD (earlier - 1) 0 == reach.content.getD (later - 1) 0 then
      agreementBefore reach (earlier - 1) (later - 1) bound + 1
    else 0

/-- Whether the two places agree in at least `count` bytes, where the earlier one may be nowhere. -/
def agrees (reach : Reach) (count earlier later : Nat) : Bool :=
  reach.lowest < earlier && count ≤ reach.agreement earlier later

end Reach

/-- Bytes from a place on that stand `distance` bytes before. -/
structure Copy where
  place : Nat
  length : Nat
  distance : Nat

/-- The longest copy around two places that agree, from `start` on. -/
def Reach.copy (reach : Reach) (start earlier later : Nat) : Copy :=
  let before := reach.agreementBefore earlier later (later - start)
  ⟨later - before, before + reach.agreement earlier later, later - earlier⟩

/-- What the search knows from before. -/
structure Search where
  places : Places
  /-- The last distance and the one before; zero if there is none within reach. -/
  recent : Nat
  older : Nat

inductive Find
  /-- The last distance again, one byte further on. -/
  | again (length : Nat)
  | copy (copy : Copy)

/-- Looks for a copy at a place, or at the `next` one if its eight bytes occurred and only five of this
one did. Notes the place. -/
def Search.look (reach : Reach) (start place next recent : Nat) (places : Places) :
    Option Find × Places :=
  let word := Places.word reach.content place
  let long := places.long? word
  let short := places.short.getD (Places.shortSlot word) 0
  let places := (places.setLong word place).setShort word place
  let repeated :=
    if recent = 0 then 0 else reach.agreement (place + 1 - recent) (place + 1)
  if 4 ≤ repeated then (some (.again repeated), places)
  else if reach.agrees 8 long place then (some (.copy (reach.copy start long place)), places)
  else if reach.agrees 4 short place then
    let nextLong := places.long? (Places.word reach.content next)
    if reach.agrees 8 nextLong next then
      (some (.copy (reach.copy start nextLong next)), places)
    else (some (.copy (reach.copy start short place)), places)
  else (none, places)

/-- Eight bytes have to be left at every place that is looked up. -/
def Reach.hasWord (reach : Reach) (place : Nat) : Bool := place + 8 ≤ reach.stop

/-- What was found, where it was looked for, which place would have been the next, and how far that is.
-/
structure Hit where
  find : Find
  place : Nat
  next : Nat
  stride : Nat

/-- Looks from a place on; the strides grow by one whenever they pass another 256 bytes. -/
def Search.seek (reach : Reach) (start recent : Nat) :
    (bound place stride widen : Nat) → Places → Option Hit × Places
  | 0, _, _, _, places => (none, places)
  | bound + 1, place, stride, widen, places =>
    let next := place + stride
    if !reach.hasWord next then (none, places)
    else
      match Search.look reach start place next recent places with
      | (some find, places) => (some ⟨find, place, next, stride⟩, places)
      | (none, places) =>
        if widen ≤ next then Search.seek reach start recent bound next (stride + 1) (widen + 256) places
        else Search.seek reach start recent bound next stride widen places

/-- Notes some places around a copy that was looked for at `place` and ends at `stop`. -/
def Places.around (reach : Reach) (place stop : Nat) (places : Places) : Places :=
  let second := Places.word reach.content (place + 2)
  let places := places.setLong second (place + 2)
  let places := places.setLong (Places.word reach.content (stop - 2)) (stop - 2)
  let places := places.setShort second (place + 2)
  places.setShort (Places.word reach.content (stop - 1)) (stop - 1)

/-- Copies that follow right after a copy, at the distance before the last. -/
def Search.again (reach : Reach) :
    (bound place : Nat) → Search → Array Sequence → Nat × Search × Array Sequence
  | 0, place, search, found => (place, search, found)
  | bound + 1, place, search, found =>
    let length :=
      if search.older = 0 || !reach.hasWord place then 0
      else reach.agreement (place - search.older) place
    if length < 4 then (place, search, found)
    else
      let word := Places.word reach.content place
      let places := (search.places.setShort word place).setLong word place
      Search.again reach bound (place + length) ⟨places, search.older, search.recent⟩
        (found.push ⟨0, length, 1⟩)

/-- The sequences from a place on, where the literals since `start` are still to come. -/
def Search.sequences (reach : Reach) :
    (bound place start : Nat) → Search → Array Sequence → Array Sequence × Search
  | 0, _, _, search, found => (found, search)
  | bound + 1, place, start, search, found =>
    let ⟨places, recent, older⟩ := search
    match Search.seek reach start recent reach.stop place 1 (place + 256) places with
    | (none, places) => (found, ⟨places, recent, older⟩)
    | (some hit, places) =>
      let (stop, search, sequence) :=
        match hit.find with
        | .again length =>
          (hit.place + 1 + length, Search.mk places recent older,
            Sequence.mk (hit.place + 1 - start) length 1)
        | .copy copy =>
          let places :=
            if hit.stride < 4 then
              places.setLong (Places.word reach.content hit.next) hit.next
            else places
          (copy.place + copy.length, ⟨places, copy.distance, recent⟩,
            ⟨copy.place - start, copy.length, copy.distance + 3⟩)
      let found := found.push sequence
      if !reach.hasWord stop then Search.sequences reach bound stop stop search found
      else
        let ⟨places, recent, older⟩ := search
        let search := ⟨places.around reach hit.place stop, recent, older⟩
        let (stop, search, found) := Search.again reach reach.stop stop search found
        Search.sequences reach bound stop stop search found

/-- The sequences for the content from a place up to the end of the reach. Of the first byte of all
content nothing is known, so the search begins with the second. -/
def Search.run (reach : Reach) (start : Nat) (search : Search) : Array Sequence × Search :=
  let place := if start = reach.lowest then start + 1 else start
  let within (distance : Nat) : Nat := if distance ≤ place - reach.lowest then distance else 0
  let ⟨places, recent, older⟩ := search
  let (found, after) := Search.sequences reach reach.stop place start
    ⟨places, within recent, within older⟩ #[]
  (found, { after with
    recent := if after.recent = 0 then recent else after.recent
    older := if after.older = 0 then older else after.older })

end TierVault.Zstandard
