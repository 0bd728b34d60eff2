import VoiceBench.Analysis.Basic
import VoiceBench.Analysis.Error
import VoiceBench.Spectrum.Fft
import VoiceBench.Spectrum.Magnitude

/-!
# Frequency response of filter taps

The magnitude response of an impulse response: its taps transformed at their own length,
the one-sided spectrum in decibels above a floor of `10⁻³⁹`, so an empty bin reads about
-780 dB instead of minus infinity. The display range runs from the lowest magnitude, but
not below -75 dB, to 5 dB above the peak; a response below the floor everywhere has a
range whose start exceeds its end.
-/

namespace VoiceBench.Analysis

open Binary Spectrum

/-- The floor added to every magnitude before its logarithm. -/
def magnitudeFloor : Float32 := singleOfDecimal 1 (-39)

/-- The lowest start of a display range. -/
def displayFloorDb : Float32 := -75

/-- The headroom of a display range above the peak. -/
def displayHeadroomDb : Float32 := 5

/-- The magnitude response of an impulse response. -/
structure FilterResponse where
  frequencies : Array Float32
  magnitudeDb : Array Float32

namespace FilterResponse

/-- The response of the taps at the given sample rate; there must be at least one tap. -/
def ofImpulse (fft : Fft) (coefficients : Array Float32) (sampleRate : Float32) :
    Except AnalysisError FilterResponse :=
  if coefficients.isEmpty then
    .error (.invalidParameter "coefficients" "impulse response is empty")
  else
    let spectrum := fft.forwardReal coefficients.size coefficients
    .ok { frequencies := binFrequencies spectrum.size sampleRate
          magnitudeDb := Spectrum.magnitudeDb spectrum magnitudeFloor }

/-- The highest magnitude, NaNs passed over; minus infinity when there is none. -/
def peakDb (r : FilterResponse) : Float32 :=
  r.magnitudeDb.foldl maxSingle (-(1 / 0))

/-- The lowest magnitude, NaNs passed over; infinity when there is none. -/
def minDb (r : FilterResponse) : Float32 :=
  r.magnitudeDb.foldl minSingle (1 / 0)

/-- From the lowest magnitude, raised to the display floor, to the peak plus headroom. -/
def displayRange (r : FilterResponse) : Float32 × Float32 :=
  (maxSingle r.minDb displayFloorDb, r.peakDb + displayHeadroomDb)

end FilterResponse

end VoiceBench.Analysis
