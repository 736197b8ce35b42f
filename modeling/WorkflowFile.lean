import WorkflowFile.Action
import WorkflowFile.Arguments
import WorkflowFile.ConsistencyCheck
import WorkflowFile.Fault
import WorkflowFile.FileSystem
import WorkflowFile.Job
import WorkflowFile.Job.Record
import WorkflowFile.Locator
import WorkflowFile.Node
import WorkflowFile.OrderedMap
import WorkflowFile.OrderedSet
import WorkflowFile.Path
import WorkflowFile.Preamble
import WorkflowFile.Rendering
import WorkflowFile.Repository
import WorkflowFile.Repository.Head
import WorkflowFile.Repository.Inclusion
import WorkflowFile.Repository.Objects
import WorkflowFile.Repository.Settings
import WorkflowFile.Repository.Settings.Reader
import WorkflowFile.Repository.Settings.Value
import WorkflowFile.Step
import WorkflowFile.Text.Digits
import WorkflowFile.Text.Lines
import WorkflowFile.Text.Whitespace
import WorkflowFile.Text.Wildcard
import WorkflowFile.Trigger
import WorkflowFile.Trigger.Record
import WorkflowFile.Workflow
import WorkflowFile.Workflow.Document
import WorkflowFile.Workflow.Soundness
import WorkflowFile.Yaml.Block
import WorkflowFile.Yaml.Character
import WorkflowFile.Yaml.Numeral
import WorkflowFile.Yaml.Scalar
import WorkflowFile.Proofs.FileSystem
import WorkflowFile.Proofs.Records
import WorkflowFile.Proofs.Soundness
import WorkflowFile.Proofs.Blame
import WorkflowFile.Proofs.Rendering
import WorkflowFile.Proofs.ConsistencyCheck
import WorkflowFile.Proofs.WorkingCopy
import WorkflowFile.Proofs.Content
import WorkflowFile.Proofs.Yaml.Numeral
import WorkflowFile.Proofs.Yaml.Style
import WorkflowFile.Proofs.Yaml.Scalar
import WorkflowFile.Proofs.Yaml.Block
import WorkflowFile.Proofs.Preamble
import WorkflowFile.Proofs.Directories
import WorkflowFile.Proofs.Publication
import WorkflowFile.Proofs.Place
import WorkflowFile.Proofs.Target
import WorkflowFile.Proofs.Listing
import WorkflowFile.Proofs.CheckEffect
import WorkflowFile.Proofs.Comparison
import WorkflowFile.Proofs.Locator
import WorkflowFile.Proofs.Discovery
import WorkflowFile.Proofs.CheckSoundness
import WorkflowFile.Proofs.Schedule
import WorkflowFile.Proofs.Provenance
import WorkflowFile.Proofs.Series
import WorkflowFile.Proofs.Sorted
import WorkflowFile.Proofs.Equality
import WorkflowFile.Proofs.Containment
import WorkflowFile.Proofs.Refusal
import WorkflowFile.Proofs.Precedence
import WorkflowFile.Proofs.Pruning
import WorkflowFile.Proofs.Stripping
import WorkflowFile.Proofs.Merging
import WorkflowFile.Proofs.Comment
import WorkflowFile.Proofs.Inputs
import WorkflowFile.Proofs.Numbering
import WorkflowFile.Proofs.Changes
import WorkflowFile.Proofs.Waiting
