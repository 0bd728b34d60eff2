import VoiceBench.Toml.Codec
import VoiceBench.Media.WavCodec
import VoiceBench.Spectrum.Fft

/-!
# The libraries the tools call

The tools store TOML text and WAV files and take Fourier transforms through libraries of
their own: each is a structure of its functions (`Toml.Codec`, `Media.WavCodec`,
`Spectrum.Fft`), the programs take them as a parameter, and what is proved of a reader, a
writer or an analysis holds for every library that behaves as the statement asks.
-/

namespace VoiceBench

/-- The libraries the programs call. -/
structure Libraries where
  toml : Toml.Codec
  wav : Media.WavCodec
  fft : Spectrum.Fft

end VoiceBench
