import Urb.Basis.Dict
import Urb.Basis.Exec
import Urb.Basis.Ledger
import Urb.Basis.Holdings
import Urb.Basis.LinkedMap
import Urb.Basis.Greenlet
import Urb.Basis.Redis
import Urb.Basis.Background
import Urb.Basis.Recent
import Urb.Basis.Agenda
import Urb.Basis.Regex
import Urb.Basis.DictLoop
import Urb.Basis.Text
import Urb.Naming
import Urb.ChoppyRange
import Urb.RangeSets
import Urb.RangeGrid
import Urb.RangeAlgebra
import Urb.RangeCuts
import Urb.PortSets
import Urb.Service
import Urb.Resources
import Urb.Offers
import Urb.Tasks
import Urb.Registration
import Urb.Removal
import Urb.Reconcile
import Urb.Step
import Urb.Frames
import Urb.LaunchLoop
import Urb.StagingLoop
import Urb.ReconcileFrame
import Urb.CleanUp
import Urb.Finality
import Urb.Routing
import Urb.Accounting
import Urb.OfferBook
import Urb.SingleOffer
import Urb.BookKeeping
import Urb.Stranded
import Urb.SingleUse
import Urb.RunHistory
import Urb.RunPhases
import Urb.RunOnce
import Urb.Stock
import Urb.Conservation
import Urb.JobSlaves
import Urb.KillRoute
import Urb.Tracker
import Urb.FrameworkRemoval
import Urb.JobLimit
import Urb.Submission
import Urb.ExecutorProcess
import Urb.SlaveMemory
import Urb.Payable
import Urb.Rebuild
import Urb.Restart
import Urb.Greenlets
import Urb.LockProtocol
import Urb.DeferredDeletion
import Urb.EventDelivery
import Urb.Broker
import Urb.AtLeastOnce
import Urb.Recovery
import Urb.Election
import Urb.Retries
import Urb.Redelivery
import Urb.FrameworkIdentity
import Urb.SchedulerDriver
import Urb.HttpCalls
import Urb.RunnerLaunch
import Urb.AcceptedOffers
import Urb.BackgroundLoops
import Urb.FinishedFrameworks
import Urb.PortArithmetic
import Urb.DebitCredit
import Urb.JobPolls
import Urb.Acknowledgements
import Urb.Placeholders
import Urb.AcceptOperations
import Urb.Solvency
import Urb.HonestOffers
import Urb.Lifecycle
import Urb.OfferLoops
import Urb.ChannelExpiry
import Urb.RunningDriver
import Urb.StagingTasks
import Urb.EventLoop
import Urb.TimerObjects
import Urb.SubmitOptions
import Urb.FrameworkConfig
import Urb.SubmitCommand
import Urb.FrameworkRecord
import Urb.FrameworkSummary
import Urb.ChildHandler
import Urb.ElectionCallbacks
import Urb.ReplayOrder
import Urb.RangeChunks
import Urb.RangeUnion
import Urb.Url
import Urb.OfferNumbers
import Urb.RangeGroups
import Urb.RangeTexts
import Urb.ClientChannel
import Urb.ExecutorDriver
