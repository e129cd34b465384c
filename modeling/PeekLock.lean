import PeekLock.Broker.Basic
import PeekLock.Broker.Notice
import PeekLock.Broker.Operations
import PeekLock.Broker.Schedule
import PeekLock.Capabilities
import PeekLock.CommandLine.Arguments
import PeekLock.CommandLine.Error
import PeekLock.CommandLine.LogFilter
import PeekLock.CommandLine.Run
import PeekLock.Counters
import PeekLock.Demo.Run
import PeekLock.Demo.Summary
import PeekLock.Demo.Wait
import PeekLock.Envelope
import PeekLock.Envelope.Draft
import PeekLock.Envelope.Edit
import PeekLock.Envelope.Wire
import PeekLock.Error
import PeekLock.Json.Document
import PeekLock.Json.Failure
import PeekLock.Json.Lexical
import PeekLock.Json.Reader
import PeekLock.Json.Record
import PeekLock.Json.Shape
import PeekLock.Json.Value
import PeekLock.Keyed
import PeekLock.Listener.Loop
import PeekLock.Listener.Receiver
import PeekLock.Main
import PeekLock.MessageId
import PeekLock.Number.Limits
import PeekLock.Number.Shortest
import PeekLock.Parameters
import PeekLock.Pattern.Basic
import PeekLock.Pattern.Reader
import PeekLock.Proofs.Broker.Action
import PeekLock.Proofs.Broker.Books
import PeekLock.Proofs.Broker.Effect
import PeekLock.Proofs.Broker.History
import PeekLock.Proofs.Broker.Isolation
import PeekLock.Proofs.Broker.Origin
import PeekLock.Proofs.Broker.Quiet
import PeekLock.Proofs.Broker.SharedCounters
import PeekLock.Proofs.Broker.Station
import PeekLock.Proofs.Broker.Timeout
import PeekLock.Proofs.Broker.Uncounted
import PeekLock.Proofs.Broker.WakeUp
import PeekLock.Proofs.Broker.Work
import PeekLock.Proofs.CommandLine.Settings
import PeekLock.Proofs.Counters
import PeekLock.Proofs.Demo.Course
import PeekLock.Proofs.Demo.Outcome
import PeekLock.Proofs.Demo.Payload
import PeekLock.Proofs.Demo.Round
import PeekLock.Proofs.Demo.Wait
import PeekLock.Proofs.Envelope.Payload
import PeekLock.Proofs.Envelope.Reference
import PeekLock.Proofs.Envelope.Sealed
import PeekLock.Proofs.Envelope.Wire
import PeekLock.Proofs.Json.Deferral
import PeekLock.Proofs.Json.Document
import PeekLock.Proofs.Json.Lines
import PeekLock.Proofs.Json.Members
import PeekLock.Proofs.Json.Numerals
import PeekLock.Proofs.Json.Quoted
import PeekLock.Proofs.Json.Record
import PeekLock.Proofs.Json.Values
import PeekLock.Proofs.Keyed
import PeekLock.Proofs.Listener.Calm
import PeekLock.Proofs.Listener.Custody
import PeekLock.Proofs.Listener.Ending
import PeekLock.Proofs.Listener.Move
import PeekLock.Proofs.Listener.Round
import PeekLock.Proofs.Listener.Scope
import PeekLock.Proofs.Listener.Word
import PeekLock.Proofs.Parameters
import PeekLock.Proofs.Queue.Access
import PeekLock.Proofs.Queue.Delivery
import PeekLock.Proofs.Queue.Fate
import PeekLock.Proofs.Queue.Lifetime
import PeekLock.Proofs.Queue.Peek
import PeekLock.Proofs.Queue.Representation
import PeekLock.Proofs.Queue.Rotation
import PeekLock.Proofs.Queue.Settlement
import PeekLock.Proofs.Queue.Sound
import PeekLock.Proofs.Queue.Sweep
import PeekLock.Proofs.Queue.Tally
import PeekLock.Proofs.QueueName
import PeekLock.Proofs.Session.Holding
import PeekLock.Proofs.Session.Isolation
import PeekLock.Proofs.Session.Reach
import PeekLock.Proofs.Settings.Files
import PeekLock.Proofs.Settings.Layering
import PeekLock.Proofs.Settings.Rendering
import PeekLock.Proofs.Text.Base64
import PeekLock.Proofs.Text.Canonical
import PeekLock.Proofs.Text.Replacement
import PeekLock.Proofs.Text.Utf8
import PeekLock.Proofs.Time.Addition
import PeekLock.Proofs.Time.Calendar
import PeekLock.Proofs.Time.Display
import PeekLock.Proofs.Time.Order
import PeekLock.Proofs.Time.Rfc3339
import PeekLock.Proofs.Toml.Lines
import PeekLock.Queue.Storage
import PeekLock.QueueName
import PeekLock.Session.Basic
import PeekLock.Session.Run
import PeekLock.Settings
import PeekLock.Settings.Layer
import PeekLock.Settings.Load
import PeekLock.Settings.Render
import PeekLock.Settings.Source
import PeekLock.Text.Base64
import PeekLock.Text.Blank
import PeekLock.Text.Letter
import PeekLock.Text.Printable
import PeekLock.Text.Quoted
import PeekLock.Text.Utf8
import PeekLock.Time.Calendar
import PeekLock.Time.Duration
import PeekLock.Time.Rfc3339
import PeekLock.Time.Timestamp
import PeekLock.Toml.Reader
import PeekLock.Toml.Text
import PeekLock.Toml.Value
import PeekLock.Yaml.Cursor
import PeekLock.Yaml.Document
import PeekLock.Yaml.Node
import PeekLock.Yaml.Scalar
import PeekLock.Yaml.Token
import PeekLock.Yaml.Token.Lexer
import PeekLock.Yaml.Token.Lines
import PeekLock.Yaml.Token.Plain
import PeekLock.Yaml.Token.Quoted
import PeekLock.Yaml.Token.Tag
import PeekLock.Yaml.Value
