import SourceAtlas.Main
import SourceAtlas.Proofs.Answers
import SourceAtlas.Proofs.Cleanup.Custody
import SourceAtlas.Proofs.Cleanup.Directory
import SourceAtlas.Proofs.Cleanup.Removal
import SourceAtlas.Proofs.Cleanup.Sweep
import SourceAtlas.Proofs.Cleanup.Sweeper
import SourceAtlas.Proofs.CommandLine.Answers
import SourceAtlas.Proofs.Extraction.Archive
import SourceAtlas.Proofs.Extraction.Attribution
import SourceAtlas.Proofs.Extraction.Confinement
import SourceAtlas.Proofs.Extraction.Destination
import SourceAtlas.Proofs.Extraction.Entry
import SourceAtlas.Proofs.Extraction.Invariant
import SourceAtlas.Proofs.Extraction.Limits
import SourceAtlas.Proofs.Extraction.Outcome
import SourceAtlas.Proofs.Extraction.Readable
import SourceAtlas.Proofs.Extraction.Respelling
import SourceAtlas.Proofs.Extraction.Stopping
import SourceAtlas.Proofs.Files.Changes
import SourceAtlas.Proofs.Files.Directories
import SourceAtlas.Proofs.Files.DottedPath
import SourceAtlas.Proofs.Files.Exactness
import SourceAtlas.Proofs.Files.InDirectory
import SourceAtlas.Proofs.Files.Loss
import SourceAtlas.Proofs.Files.Onward
import SourceAtlas.Proofs.Files.Operations
import SourceAtlas.Proofs.Files.Reaching
import SourceAtlas.Proofs.Files.Removal
import SourceAtlas.Proofs.Files.Resolution
import SourceAtlas.Proofs.Files.Room
import SourceAtlas.Proofs.Files.Runs
import SourceAtlas.Proofs.Files.Standing
import SourceAtlas.Proofs.Files.Straight
import SourceAtlas.Proofs.Files.Walk
import SourceAtlas.Proofs.Graph.Additions
import SourceAtlas.Proofs.Imports.Resolution
import SourceAtlas.Proofs.Imports.Specifier
import SourceAtlas.Proofs.Lists.FirstOccurrences
import SourceAtlas.Proofs.Path.Acceptance
import SourceAtlas.Proofs.Path.Canonical
import SourceAtlas.Proofs.Path.Entry
import SourceAtlas.Proofs.Path.Parts
import SourceAtlas.Proofs.Path.Text
import SourceAtlas.Proofs.Project.Agreement
import SourceAtlas.Proofs.Project.Analysis
import SourceAtlas.Proofs.Project.Atomicity
import SourceAtlas.Proofs.Project.Attribution
import SourceAtlas.Proofs.Project.Canonical
import SourceAtlas.Proofs.Project.Consistency
import SourceAtlas.Proofs.Project.Counts
import SourceAtlas.Proofs.Project.InputOrder
import SourceAtlas.Proofs.Project.Leaves
import SourceAtlas.Proofs.Project.Links
import SourceAtlas.Proofs.Project.Listing
import SourceAtlas.Proofs.Project.Noninterference
import SourceAtlas.Proofs.Project.Occupied
import SourceAtlas.Proofs.Project.Ranking
import SourceAtlas.Proofs.Project.Reading
import SourceAtlas.Proofs.Project.Scan
import SourceAtlas.Proofs.Project.Sources
import SourceAtlas.Proofs.Project.Spelling
import SourceAtlas.Proofs.Service.Accounts
import SourceAtlas.Proofs.Service.AllOrNothing
import SourceAtlas.Proofs.Service.Answers
import SourceAtlas.Proofs.Service.LongPaths
import SourceAtlas.Proofs.Service.Runs
import SourceAtlas.Proofs.Service.Storing
import SourceAtlas.Proofs.Service.Upload
import SourceAtlas.Proofs.Service.World
import SourceAtlas.Service.Lifecycle
