import ImageDigest.Buffer
import ImageDigest.Codec.Basic
import ImageDigest.Codec.Deflate.Bits
import ImageDigest.Codec.Deflate.Block
import ImageDigest.Codec.Deflate.Code
import ImageDigest.Codec.Deflate.Stream
import ImageDigest.Codec.Lanczos
import ImageDigest.Codec.Luma
import ImageDigest.Codec.Nearest
import ImageDigest.Codec.Png.Checksum
import ImageDigest.Codec.Png.Chunk
import ImageDigest.Codec.Png.Image
import ImageDigest.Codec.Standard
import ImageDigest.Codec.Traced
import ImageDigest.Color
import ImageDigest.CommandLine.ImageFile
import ImageDigest.CommandLine.Item
import ImageDigest.CommandLine.Request
import ImageDigest.CommandLine.Run
import ImageDigest.FileTree
import ImageDigest.Fingerprint.Basic
import ImageDigest.Fingerprint.Bits
import ImageDigest.Fingerprint.Duplicate
import ImageDigest.Fingerprint.Similarity
import ImageDigest.Geometry.Ceiling
import ImageDigest.Geometry.Fit
import ImageDigest.Image.Colors
import ImageDigest.Image.Error
import ImageDigest.Image.Fingerprint
import ImageDigest.Image.Sample
import ImageDigest.Image.Sharpness
import ImageDigest.Main
import ImageDigest.Number.Decimal.Fixed
import ImageDigest.Number.Decimal.Read
import ImageDigest.Number.Decimal.Shortest
import ImageDigest.Number.Digits
import ImageDigest.Number.FloatValue
import ImageDigest.Number.Rounding
import ImageDigest.Number.Total
import ImageDigest.Palette.Basic
import ImageDigest.Palette.Bucket
import ImageDigest.Palette.Cluster
import ImageDigest.Palette.Pick
import ImageDigest.Palette.Tally
import ImageDigest.Report.Json
import ImageDigest.Report.Lines
import ImageDigest.Report.Record
import ImageDigest.Settings.Basic
import ImageDigest.Settings.Decode
import ImageDigest.Settings.Load
import ImageDigest.Settings.StockText
import ImageDigest.Settings.Valid
import ImageDigest.Sharpness
import ImageDigest.Text.Hex
import ImageDigest.Text.Quoted
import ImageDigest.Text.Unprintable
import ImageDigest.Toml.Datetime
import ImageDigest.Toml.Document
import ImageDigest.Toml.Merge
import ImageDigest.Toml.Number
import ImageDigest.Toml.Reader
import ImageDigest.Toml.Text
import ImageDigest.Toml.Tree
import ImageDigest.Toml.Value
import ImageDigest.Proofs.Fingerprint.Bits
import ImageDigest.Proofs.Fingerprint.Similarity
import ImageDigest.Proofs.Fingerprint.Grid
import ImageDigest.Proofs.Except
import ImageDigest.Proofs.Fingerprint.Duplicate
import ImageDigest.Proofs.Codec.Traced
import ImageDigest.Proofs.Image.Duplicate
import ImageDigest.Proofs.Geometry.Ceiling
import ImageDigest.Proofs.Geometry.Fit
import ImageDigest.Proofs.Codec.Contract
import ImageDigest.Proofs.Image.Sample
import ImageDigest.Proofs.Image.Fingerprint
import ImageDigest.Proofs.Image.Sharpness
import ImageDigest.Proofs.Palette.Tally
import ImageDigest.Proofs.Palette.Bucket
import ImageDigest.Proofs.Palette.Cluster
import ImageDigest.Proofs.Palette.Pick
import ImageDigest.Proofs.Palette.Analysis
import ImageDigest.Proofs.Buffer
import ImageDigest.Proofs.Image.Layout
import ImageDigest.Proofs.Settings.Overlay
import ImageDigest.Proofs.CommandLine.Duplicates
import ImageDigest.Proofs.Codec.Picture
import ImageDigest.Proofs.Palette.Descent
import ImageDigest.Proofs.Settings.Override
import ImageDigest.Proofs.Image.NoPixels
import ImageDigest.Proofs.Image.SingleColor
import ImageDigest.Proofs.Palette.OneColor
import ImageDigest.Proofs.Palette.Partition
import ImageDigest.Proofs.Toml.Path
import ImageDigest.Proofs.Palette.Provenance
import ImageDigest.Proofs.Palette.Census
import ImageDigest.Proofs.Palette.Settling
import ImageDigest.Proofs.Palette.Repeats
import ImageDigest.Proofs.Number.Nearest
import ImageDigest.Proofs.Geometry.Budget
import ImageDigest.Proofs.Fingerprint.Metric
import ImageDigest.Proofs.Fingerprint.Rearranged
import ImageDigest.Proofs.Fingerprint.Local
import ImageDigest.Proofs.Fingerprint.Orientation
import ImageDigest.Proofs.Fingerprint.Tone
import ImageDigest.Proofs.Palette.Frequency
import ImageDigest.Proofs.Palette.ClusterCount
import ImageDigest.Proofs.Palette.SingleCluster
import ImageDigest.Proofs.Number.FloatDifference
import ImageDigest.Proofs.Number.FloatArithmetic
import ImageDigest.Proofs.Saturation
import ImageDigest.Proofs.Palette.Vibrant
import ImageDigest.Proofs.Palette.Achromatic
import ImageDigest.Proofs.Sharpness.Symmetry
import ImageDigest.Proofs.Geometry.Scale
import ImageDigest.Proofs.Geometry.Touch
import ImageDigest.Proofs.Sharpness.Extremes
import ImageDigest.Proofs.Sharpness.Words
import ImageDigest.Proofs.Text.Bytes
import ImageDigest.Proofs.Color
import ImageDigest.Proofs.Number.Word
import ImageDigest.Proofs.Number.FloatNumber
import ImageDigest.Proofs.Buffer.Views
import ImageDigest.Proofs.Palette.FirstLargest
