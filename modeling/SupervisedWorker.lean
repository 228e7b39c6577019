import SupervisedWorker.AgentProbe.Session
import SupervisedWorker.CommandLine.Launch
import SupervisedWorker.Console.Script
import SupervisedWorker.ExitStatus
import SupervisedWorker.Hook.Session
import SupervisedWorker.Housekeeping.Script
import SupervisedWorker.Interrupt.Script
import SupervisedWorker.LogRetention
import SupervisedWorker.Main
import SupervisedWorker.Monitor.Script
import SupervisedWorker.OrphanNotice
import SupervisedWorker.Proofs.AgentProbe
import SupervisedWorker.Proofs.AgentProbe.Files
import SupervisedWorker.Proofs.AgentProbe.Order
import SupervisedWorker.Proofs.CommandLine.Identity
import SupervisedWorker.Proofs.CommandLine.Services
import SupervisedWorker.Proofs.CommandLine.Validation
import SupervisedWorker.Proofs.Console.Filling
import SupervisedWorker.Proofs.Console.Gate
import SupervisedWorker.Proofs.Console.Script
import SupervisedWorker.Proofs.Failure
import SupervisedWorker.Proofs.Files.Directory
import SupervisedWorker.Proofs.Hook.Printing
import SupervisedWorker.Proofs.Hook.ReadBack
import SupervisedWorker.Proofs.Hook.Reentry
import SupervisedWorker.Proofs.Hook.Registry
import SupervisedWorker.Proofs.Hook.Report
import SupervisedWorker.Proofs.Hook.Sealed
import SupervisedWorker.Proofs.Hook.Silent
import SupervisedWorker.Proofs.Hook.Sweep
import SupervisedWorker.Proofs.Housekeeping
import SupervisedWorker.Proofs.Interrupt
import SupervisedWorker.Proofs.LogRetention
import SupervisedWorker.Proofs.LogRetention.Siblings
import SupervisedWorker.Proofs.Lookup
import SupervisedWorker.Proofs.Monitor
import SupervisedWorker.Proofs.Number
import SupervisedWorker.Proofs.Number.Numeral
import SupervisedWorker.Proofs.OrphanNotice
import SupervisedWorker.Proofs.Panic
import SupervisedWorker.Proofs.Run.Accounting
import SupervisedWorker.Proofs.Run.Alike
import SupervisedWorker.Proofs.Run.BrokenConsole
import SupervisedWorker.Proofs.Run.Callers
import SupervisedWorker.Proofs.Run.Calls
import SupervisedWorker.Proofs.Run.Console
import SupervisedWorker.Proofs.Run.Course
import SupervisedWorker.Proofs.Run.Ending
import SupervisedWorker.Proofs.Run.Frame
import SupervisedWorker.Proofs.Run.History
import SupervisedWorker.Proofs.Run.Muting
import SupervisedWorker.Proofs.Run.Protocol
import SupervisedWorker.Proofs.Run.Return
import SupervisedWorker.Proofs.Run.Standalone
import SupervisedWorker.Proofs.Run.Stragglers
import SupervisedWorker.Proofs.Run.Token
import SupervisedWorker.Proofs.Service.Catalog
import SupervisedWorker.Proofs.Service.CleanNames
import SupervisedWorker.Proofs.Service.CommaList
import SupervisedWorker.Proofs.Service.NameList
import SupervisedWorker.Proofs.Service.StartedOnce
import SupervisedWorker.Proofs.Settings.Fields
import SupervisedWorker.Proofs.Settings.Layers
import SupervisedWorker.Proofs.Settings.Reload
import SupervisedWorker.Proofs.Settings.Sources
import SupervisedWorker.Proofs.Settings.TextVariables
import SupervisedWorker.Proofs.Settings.Tree
import SupervisedWorker.Proofs.StallSampler
import SupervisedWorker.Proofs.StopWatch
import SupervisedWorker.Proofs.Text.Bytes
import SupervisedWorker.Proofs.Text.Joined
import SupervisedWorker.Proofs.Text.Lines
import SupervisedWorker.Proofs.Text.Lowercase
import SupervisedWorker.Proofs.Toml.Distinct
import SupervisedWorker.Proofs.Toml.Rendered
import SupervisedWorker.Proofs.Toml.Texts
import SupervisedWorker.Proofs.WorkLayout
import SupervisedWorker.Run.Scene
import SupervisedWorker.Service.NameList
import SupervisedWorker.StallSampler
import SupervisedWorker.StopWatch.Session
