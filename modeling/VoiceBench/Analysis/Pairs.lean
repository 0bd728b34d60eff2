/-!
# Channel pairs

An unordered pair of distinct channels of one recording, the lower index first, tagged with
the index of the recording. The pairs of a recording come in lexicographic order; the pairs
of several recordings are concatenated in recording order.
-/

namespace VoiceBench.Analysis

/-- Two distinct channels `a < b` of recording `source`. -/
structure ChannelPair where
  source : Nat
  a : Nat
  b : Nat
  deriving DecidableEq, Repr

namespace ChannelPair

/-- The pair of two channels in either order; none for a channel with itself. -/
def new? (source x y : Nat) : Option ChannelPair :=
  if x < y then some ⟨source, x, y⟩
  else if y < x then some ⟨source, y, x⟩
  else none

/-- The short label `chA-chB`. -/
def label (p : ChannelPair) : String := s!"ch{p.a}-ch{p.b}"

end ChannelPair

/-- Every pair of channels of a recording with `count` channels, in lexicographic order. -/
def channelPairs (source count : Nat) : List ChannelPair :=
  (List.range count).flatMap fun a =>
    (List.range' (a + 1) (count - (a + 1))).map fun b => ⟨source, a, b⟩

/-- The pairs of several recordings, given their channel counts, in recording order. -/
def pairsForSources (counts : List Nat) : List ChannelPair :=
  counts.zipIdx.flatMap fun (count, source) => channelPairs source count

end VoiceBench.Analysis
