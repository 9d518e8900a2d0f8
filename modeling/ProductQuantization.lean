import ProductQuantization.Artifact.Codec
import ProductQuantization.Artifact.Publish
import ProductQuantization.Artifact.RotationFile
import ProductQuantization.Artifact.Word
import ProductQuantization.Cluster.Basic
import ProductQuantization.Cluster.Lloyd
import ProductQuantization.Cluster.Refine
import ProductQuantization.Cluster.Seeding
import ProductQuantization.Codebook.Basic
import ProductQuantization.Codebook.Decode
import ProductQuantization.Codebook.Encode
import ProductQuantization.Codebook.Packing
import ProductQuantization.Codebook.Table
import ProductQuantization.Codebook.Train
import ProductQuantization.CommandLine.Call
import ProductQuantization.CommandLine.Run
import ProductQuantization.Dataset.Error
import ProductQuantization.Dataset.Format
import ProductQuantization.Dataset.Fvecs
import ProductQuantization.Dataset.Read
import ProductQuantization.Dataset.Sample
import ProductQuantization.Dataset.Tsv
import ProductQuantization.Distance
import ProductQuantization.Error
import ProductQuantization.Job.Config
import ProductQuantization.Job.Error
import ProductQuantization.Job.Stages
import ProductQuantization.Json.Basic
import ProductQuantization.Json.Decode
import ProductQuantization.Json.Number
import ProductQuantization.Json.Parser
import ProductQuantization.Json.Printer
import ProductQuantization.Json.Record
import ProductQuantization.Main
import ProductQuantization.Matrix.Basic
import ProductQuantization.Matrix.Error
import ProductQuantization.Number.Digits
import ProductQuantization.Number.Double
import ProductQuantization.Number.Layout
import ProductQuantization.Number.Numeral
import ProductQuantization.Number.Order
import ProductQuantization.Number.Precision
import ProductQuantization.Number.Shortest
import ProductQuantization.Number.Single
import ProductQuantization.Number.Size
import ProductQuantization.Options
import ProductQuantization.Proofs.Artifact.CodecFormat
import ProductQuantization.Proofs.Artifact.Words
import ProductQuantization.Proofs.Cluster.Agreement
import ProductQuantization.Proofs.Cluster.BestRestart
import ProductQuantization.Proofs.Cluster.DistinctSeeds
import ProductQuantization.Proofs.Cluster.FarthestSeats
import ProductQuantization.Proofs.Cluster.NearestCentroid
import ProductQuantization.Proofs.Cluster.Numbers
import ProductQuantization.Proofs.Cluster.PointPasses
import ProductQuantization.Proofs.Cluster.Settled
import ProductQuantization.Proofs.Cluster.WarmPass
import ProductQuantization.Proofs.Codebook.Agreement
import ProductQuantization.Proofs.Codebook.Assembly
import ProductQuantization.Proofs.Codebook.BatchDecoding
import ProductQuantization.Proofs.Codebook.CentroidViews
import ProductQuantization.Proofs.Codebook.Decoding
import ProductQuantization.Proofs.Codebook.FiniteData
import ProductQuantization.Proofs.Codebook.Isolation
import ProductQuantization.Proofs.Codebook.Layout
import ProductQuantization.Proofs.Codebook.NearestCodes
import ProductQuantization.Proofs.Codebook.Packing
import ProductQuantization.Proofs.Codebook.Projection
import ProductQuantization.Proofs.Codebook.TableShapes
import ProductQuantization.Proofs.Codebook.TrainingCodes
import ProductQuantization.Proofs.Dataset.DistinctRows
import ProductQuantization.Proofs.Dataset.Lines
import ProductQuantization.Proofs.Dataset.Records
import ProductQuantization.Proofs.Distance
import ProductQuantization.Proofs.Distance.Exact
import ProductQuantization.Proofs.Distance.LaneSums
import ProductQuantization.Proofs.Job.Codecs
import ProductQuantization.Proofs.Job.ConfigurationErrors
import ProductQuantization.Proofs.Job.SeparateStages
import ProductQuantization.Proofs.Json.Reading
import ProductQuantization.Proofs.Matrix.Agreement
import ProductQuantization.Proofs.Matrix.RowListing
import ProductQuantization.Proofs.Matrix.Rows
import ProductQuantization.Proofs.Number.Bits
import ProductQuantization.Proofs.Number.FiniteMean
import ProductQuantization.Proofs.Number.Headroom
import ProductQuantization.Proofs.Number.Integers
import ProductQuantization.Proofs.Number.MonotoneSum
import ProductQuantization.Proofs.Number.Multiples
import ProductQuantization.Proofs.Number.Narrowing
import ProductQuantization.Proofs.Number.Neutral
import ProductQuantization.Proofs.Number.NonNegative
import ProductQuantization.Proofs.Number.Ordinal
import ProductQuantization.Proofs.Number.Rounded
import ProductQuantization.Proofs.Number.Rounding
import ProductQuantization.Proofs.Number.Scaling
import ProductQuantization.Proofs.Number.SignedZero
import ProductQuantization.Proofs.Number.SquareRoot
import ProductQuantization.Proofs.Options
import ProductQuantization.Proofs.Outcome
import ProductQuantization.Proofs.Rotation.Alternation
import ProductQuantization.Proofs.Rotation.CrossCovariance
import ProductQuantization.Proofs.Rotation.Frames
import ProductQuantization.Proofs.Rotation.IdentityRotation
import ProductQuantization.Proofs.Rotation.NonFiniteData
import ProductQuantization.Proofs.Rotation.OrthogonalityError
import ProductQuantization.Proofs.Rotation.PartialPermutations
import ProductQuantization.Proofs.Rotation.Peaks
import ProductQuantization.Proofs.Rotation.Products
import ProductQuantization.Proofs.Rotation.Rounds
import ProductQuantization.Proofs.Rotation.ScaleInvariance
import ProductQuantization.Proofs.Rotation.ScaledSweeps
import ProductQuantization.Proofs.Rotation.SignedPermutations
import ProductQuantization.Proofs.Rotation.TrainingOutcomes
import ProductQuantization.Proofs.SideBySide
import ProductQuantization.Proofs.Storage.AllOrNothing
import ProductQuantization.Proofs.Storage.Outcomes
import ProductQuantization.Proofs.Storage.Places
import ProductQuantization.Proofs.Storage.Readers
import ProductQuantization.Proofs.Text.Pieces
import ProductQuantization.Random.ChaCha
import ProductQuantization.Random.IndexSample
import ProductQuantization.Random.Listed
import ProductQuantization.Random.Source
import ProductQuantization.Rotation.Procrustes
import ProductQuantization.Rotation.Svd
import ProductQuantization.Rotation.Train
import ProductQuantization.Storage.Disk
import ProductQuantization.Storage.FileSystem
import ProductQuantization.Storage.Path
import ProductQuantization.Storage.TornWrite
import ProductQuantization.Text.Blank
import ProductQuantization.Text.Hex
import ProductQuantization.Text.Hidden
import ProductQuantization.Text.Quoted
import ProductQuantization.Text.Split
