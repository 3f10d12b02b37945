import ListmonkOps.Math.Run
import ListmonkOps.Math.Keyed
import ListmonkOps.Math.Program
import ListmonkOps.Math.Executions
import ListmonkOps.Math.Floats
import ListmonkOps.Math.Doubles
import ListmonkOps.Math.Insertion
import ListmonkOps.Math.Grouping
import ListmonkOps.Runtime.Text
import ListmonkOps.Runtime.Number
import ListmonkOps.Runtime.Timestamp
import ListmonkOps.Runtime.Collation
import ListmonkOps.Runtime.Stringify
import ListmonkOps.Runtime.JsonFileStore
import ListmonkOps.Runtime.Digest
import ListmonkOps.Transactional.Errors
import ListmonkOps.Transactional.Store
import ListmonkOps.Transactional.Send
import ListmonkOps.Transactional.SingleDispatch
import ListmonkOps.Transactional.Payload
import ListmonkOps.Sequence.Definition
import ListmonkOps.Sequence.Enrollment
import ListmonkOps.Sequence.Repository
import ListmonkOps.Sequence.Engine
import ListmonkOps.Sequence.Invariant
import ListmonkOps.Sequence.History
import ListmonkOps.Sequence.Fencing
import ListmonkOps.Sequence.Progress
import ListmonkOps.Sequence.Attempts
import ListmonkOps.Sequence.Workers
import ListmonkOps.Sequence.AtMostOnce
import ListmonkOps.Sequence.Reconcilable
import ListmonkOps.Webhook.Redaction
import ListmonkOps.Webhook.Event
import ListmonkOps.Webhook.Store
import ListmonkOps.Webhook.Outbox
import ListmonkOps.Webhook.Transitions
import ListmonkOps.Webhook.Invariant
import ListmonkOps.Webhook.Capacity
import ListmonkOps.Webhook.Attempts
import ListmonkOps.Webhook.Circuit
import ListmonkOps.Webhook.Signature
import ListmonkOps.Webhook.Dispatch
import ListmonkOps.Webhook.Inbound
import ListmonkOps.Experiment.Types
import ListmonkOps.Experiment.Client
import ListmonkOps.Experiment.Assignment
import ListmonkOps.Experiment.Segmentation
import ListmonkOps.Experiment.Partition
import ListmonkOps.Experiment.FilledLists
import ListmonkOps.Math.Apportionment
import ListmonkOps.Experiment.Allocation
import ListmonkOps.Experiment.Audience
import ListmonkOps.Experiment.Lifecycle
import ListmonkOps.Experiment.Cancellation
import ListmonkOps.Experiment.Deployment
import ListmonkOps.Experiment.SingleWinner
import ListmonkOps.Experiment.Provisioning
import ListmonkOps.Experiment.Creation
import ListmonkOps.Experiment.ServedIds
import ListmonkOps.Experiment.LaunchWindow
import ListmonkOps.Experiment.AutoLaunch
import ListmonkOps.Experiment.Collision
import ListmonkOps.Experiment.Preview
import ListmonkOps.Experiment.SeedSend
import ListmonkOps.Experiment.Hypothesis
import ListmonkOps.Experiment.Analysis
import ListmonkOps.Experiment.AnalysisOrder
import ListmonkOps.Experiment.Fingerprint
import ListmonkOps.Sequence.Replay
import ListmonkOps.Operations.Responses
import ListmonkOps.Operations.Lifecycle
import ListmonkOps.Operations.StatusWrites
import ListmonkOps.Math.StepDown
import ListmonkOps.Experiment.Holm
import ListmonkOps.Experiment.Comparison
import ListmonkOps.Provider.Domain
import ListmonkOps.Provider.Dmarc
import ListmonkOps.Provider.TreeWalk
import ListmonkOps.Provider.Discovery
import ListmonkOps.Provider.SpfTerms
import ListmonkOps.Provider.SpfIntervals
import ListmonkOps.Provider.SpfAuthorization
import ListmonkOps.Provider.SpfAddressSets
import ListmonkOps.Provider.SpfRanges
import ListmonkOps.Provider.SpfSender
import ListmonkOps.Provider.SpfLookups
import ListmonkOps.Provider.SpfSoundness
import ListmonkOps.Provider.SpfBudget
import ListmonkOps.Provider.AuthorizationBudget
import ListmonkOps.Templates.Registry
import ListmonkOps.Templates.Guard
import ListmonkOps.Templates.Timeline
import ListmonkOps.Segments.Drift
import ListmonkOps.Segments.Retention
import ListmonkOps.Segments.MeasuredOnce
import ListmonkOps.Segments.Outnumbered
import ListmonkOps.Subscribers.Hygiene
import ListmonkOps.Subscribers.HygieneRuns
import ListmonkOps.Math.Regex
import ListmonkOps.Runtime.RegExp
import ListmonkOps.Specs.Policy
import ListmonkOps.Specs.Operation
import ListmonkOps.Math.Precedence
import ListmonkOps.Specs.Playbook
import ListmonkOps.Operations.CampaignSendAt
import ListmonkOps.Operations.CreatedRecord
import ListmonkOps.Client.ResilientFetch
import ListmonkOps.Experiment.StoreAdapters
import ListmonkOps.Runtime.Markdown
import ListmonkOps.Experiment.ExperimentReport
import ListmonkOps.Experiment.TickPreview
import ListmonkOps.Webhook.Worker
import ListmonkOps.Webhook.DeadLetters
import ListmonkOps.Network.Addresses
import ListmonkOps.Network.Literals
import ListmonkOps.Provider.SpfCidr
import ListmonkOps.Webhook.PinnedDelivery
import ListmonkOps.Runtime.Tables
import ListmonkOps.Math.Base64
import ListmonkOps.Webhook.DomainEvents
import ListmonkOps.Operations.DryRun
import ListmonkOps.Operations.AuditedExecution
import ListmonkOps.Operations.AuditTrail
import ListmonkOps.Operations.MediaUpload
import ListmonkOps.Math.PlanApply
import ListmonkOps.Math.DesiredState
import ListmonkOps.Math.Reconciliation
import ListmonkOps.Templates.Manifest
import ListmonkOps.Users.RoleManifest
import ListmonkOps.Math.Interference
import ListmonkOps.Runtime.FileLock
import ListmonkOps.Runtime.StoreUpdates
