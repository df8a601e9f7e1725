import ClusterSync.Table
import ClusterSync.Text.Blank
import ClusterSync.Text.Order
import ClusterSync.Text.Lossy
import ClusterSync.Decimal.Binary64
import ClusterSync.Decimal.Shortest
import ClusterSync.Unicode.Ranges
import ClusterSync.Unicode.Case
import ClusterSync.Unicode.Category
import ClusterSync.Unicode.Script
import ClusterSync.Unicode.Property
import ClusterSync.Pattern.CharSet
import ClusterSync.Pattern.Match
import ClusterSync.Pattern.Escape
import ClusterSync.Pattern.Brackets
import ClusterSync.Pattern.Reading
import ClusterSync.Yaml.Token
import ClusterSync.Yaml.ScalarText
import ClusterSync.Yaml.Marks
import ClusterSync.Yaml.Scanner
import ClusterSync.Yaml.Node
import ClusterSync.Yaml.Reader
import ClusterSync.Yaml.Atom
import ClusterSync.Yaml.Value
import ClusterSync.Yaml.Error
import ClusterSync.Yaml.TextLayout
import ClusterSync.Yaml.Tree
import ClusterSync.Web
import ClusterSync.Range.Expression
import ClusterSync.Range.Percent
import ClusterSync.Range.Client
import ClusterSync.Range.Settings
import ClusterSync.Cluster.Value
import ClusterSync.Cluster.Policy
import ClusterSync.Cluster.Normal
import ClusterSync.Cluster.Reading
import ClusterSync.Cluster.Writing
import ClusterSync.Files.Error
import ClusterSync.Files.Tree
import ClusterSync.Files.ClusterFile
import ClusterSync.Failure
import ClusterSync.Publish.Protection
import ClusterSync.Publish.Replace
import ClusterSync.Publish.Writer
import ClusterSync.Source.Directory
import ClusterSync.Source.Export
import ClusterSync.Source.Links
import ClusterSync.Source.Listing
import ClusterSync.Source.Stamp
import ClusterSync.Source.Membership
import ClusterSync.Config.Entry
import ClusterSync.Config.Basic
import ClusterSync.Config.EntryReading
import ClusterSync.Config.Reading
import ClusterSync.Config.Writing
import ClusterSync.Run.Runner
import ClusterSync.Run.Plan
import ClusterSync.Run.Arguments
import ClusterSync.Run.Command
import ClusterSync.Run.Elapsed
import ClusterSync.Main
import ClusterSync.Proofs.Results
import ClusterSync.Proofs.Table
import ClusterSync.Proofs.Text
import ClusterSync.Proofs.Text.ByteOrder
import ClusterSync.Proofs.Cluster.Folding
import ClusterSync.Proofs.Cluster.FoldLaws
import ClusterSync.Proofs.Files.Names
import ClusterSync.Proofs.Files.ClusterNames
import ClusterSync.Proofs.Range.Items
import ClusterSync.Proofs.Range.Chunks
import ClusterSync.Proofs.Range.Partition
import ClusterSync.Proofs.Range.Asking
import ClusterSync.Proofs.Range.Members
import ClusterSync.Proofs.Range.Converging
import ClusterSync.Proofs.Range.Idempotence
import ClusterSync.Proofs.Publish.Staging
import ClusterSync.Proofs.Publish.Replacing
import ClusterSync.Proofs.Publish.Sending
import ClusterSync.Proofs.Publish.Report
import ClusterSync.Proofs.Publish.FinalState
import ClusterSync.Proofs.Publish.Accounting
import ClusterSync.Proofs.Publish.Log
import ClusterSync.Proofs.Publish.Moments
import ClusterSync.Proofs.Run.Collecting
import ClusterSync.Proofs.Run.Failing
import ClusterSync.Proofs.Source.Directory
import ClusterSync.Proofs.Run.Cleaning
import ClusterSync.Proofs.Publish.Failed
import ClusterSync.Proofs.Decimal.Rounding
import ClusterSync.Proofs.Decimal.Shortest
import ClusterSync.Proofs.Yaml.Numbers
import ClusterSync.Proofs.Yaml.Quoted
import ClusterSync.Proofs.Yaml.Unquoted
import ClusterSync.Proofs.Yaml.Scanning
import ClusterSync.Proofs.Yaml.ScanningTexts
import ClusterSync.Proofs.Yaml.ScanningTrees
import ClusterSync.Proofs.Yaml.ReadingTrees
import ClusterSync.Proofs.Cluster.Documents
import ClusterSync.Proofs.Cluster.Normal
import ClusterSync.Proofs.Cluster.Collisions
import ClusterSync.Proofs.Cluster.KeptKeys
import ClusterSync.Proofs.Cluster.ValueForm
import ClusterSync.Proofs.Cluster.KeptValues
import ClusterSync.Proofs.Cluster.Literals
import ClusterSync.Proofs.Config.Entries
import ClusterSync.Proofs.Config.Documents
import ClusterSync.Proofs.Config.KnownKeys
import ClusterSync.Proofs.Run.Starting
import ClusterSync.Proofs.Run.Naming
import ClusterSync.Proofs.Files.Walks
import ClusterSync.Proofs.Publish.ReadBack
import ClusterSync.Proofs.Publish.LastSet
import ClusterSync.Proofs.Range.Fewest
import ClusterSync.Proofs.Range.Thinning
import ClusterSync.Proofs.Range.Seams
import ClusterSync.Proofs.Range.Settling
import ClusterSync.Proofs.Range.Addresses
import ClusterSync.Proofs.Files.LookUps
import ClusterSync.Proofs.Source.Containment
import ClusterSync.Proofs.Source.Membership
import ClusterSync.Proofs.Source.Listing
import ClusterSync.Proofs.Source.LinkScanning
import ClusterSync.Proofs.Source.Pages
import ClusterSync.Proofs.Range.MemberLists
import ClusterSync.Proofs.Range.Carrying
import ClusterSync.Proofs.Files.PathEnds
import ClusterSync.Proofs.Publish.Copying
