import JournalCache.Package.Codec
import JournalCache.Journal.Sample
import JournalCache.Settings.Environment
import JournalCache.Scenario.Run
import JournalCache.Polling
import JournalCache.Proofs.Holdings.Merge
import JournalCache.Proofs.Course.Basic
import JournalCache.Proofs.Course.Step
import JournalCache.Proofs.Course.Bystanders
import JournalCache.Proofs.Course.Record
import JournalCache.Proofs.Course.SingleFlight
import JournalCache.Proofs.Course.Patience
import JournalCache.Proofs.Course.Serial
import JournalCache.Proofs.Course.Outcome
import JournalCache.Proofs.Holdings.Contents
import JournalCache.Proofs.Journal.Log
import JournalCache.Proofs.Feed.Basic
import JournalCache.Proofs.Feed.Order
import JournalCache.Proofs.Feed.Visibility
import JournalCache.Proofs.Holdings.Refusal
import JournalCache.Proofs.Timeline.Plays
import JournalCache.Proofs.Timeline.Courses
import JournalCache.Proofs.Course.Notices
import JournalCache.Proofs.Course.Marks
import JournalCache.Proofs.AgentTable.Registrations
import JournalCache.Proofs.Course.Bare
import JournalCache.Proofs.Lifetime.Basic
import JournalCache.Proofs.Lifetime.Closing
import JournalCache.Proofs.Lifetime.Site
import JournalCache.Proofs.Course.Tally
import JournalCache.Proofs.AgentTable.Roster
import JournalCache.Proofs.AgentTable.Shelf
import JournalCache.Proofs.Fleet.Basic
import JournalCache.Proofs.Fleet.Site
import JournalCache.Proofs.Fleet.Manned
import JournalCache.Proofs.Fleet.Consumer
import JournalCache.Proofs.Fleet.Delivery
import JournalCache.Proofs.Text.Numeral
import JournalCache.Proofs.Json.Token
import JournalCache.Proofs.Json.Basic
import JournalCache.Proofs.Json.Form
import JournalCache.Proofs.Time.Calendar
import JournalCache.Proofs.Time.Timestamp
import JournalCache.Proofs.Package.Codec
import JournalCache.Proofs.Json.Grammar
import JournalCache.Proofs.Json.Record
import JournalCache.Proofs.Package.Acceptance
import JournalCache.Proofs.AgentTable.Enlisting
import JournalCache.Proofs.Holdings.Groups
import JournalCache.Proofs.Holdings.Specification
import JournalCache.Proofs.Holdings.Batches
import JournalCache.Proofs.Course.Backfills
import JournalCache.Proofs.Coverage.Updates
import JournalCache.Proofs.SortedMap.Listing
import JournalCache.Proofs.Queue.Writes
import JournalCache.Proofs.Queue.Pages
import JournalCache.Proofs.Cache.Tail
import JournalCache.Proofs.Package.Request
import JournalCache.Proofs.Polling
import JournalCache.Proofs.Settings.Environment
import JournalCache.Proofs.Time.Minutes
import JournalCache.Proofs.Time.Spelling
import JournalCache.Proofs.Package.Stamps
