import Matchmaker.Outcome.Balance
import Matchmaker.Outcome.Drain
import Matchmaker.Outcome.Fifo
import Matchmaker.Outcome.Guard
import Matchmaker.Outcome.InsertionOrder
import Matchmaker.Outcome.Quality
import Matchmaker.Outcome.Records
import Matchmaker.Outcome.Refinement
import Matchmaker.Outcome.Scanning
import Matchmaker.Outcome.Starvation
import Matchmaker.Outcome.Steadiness
import Matchmaker.Outcome.TakingOver
import Matchmaker.Outcome.Widening
import Matchmaker.Safety.Bookkeeping
import Matchmaker.Safety.ClaimOwnership
import Matchmaker.Safety.Conservation
import Matchmaker.Safety.CrashRecovery
import Matchmaker.Safety.DoubleBooking
import Matchmaker.Safety.DualStructure
import Matchmaker.Safety.Gauge
import Matchmaker.Safety.Handover
import Matchmaker.Safety.Panics
import Matchmaker.Safety.Promptness
import Matchmaker.Safety.Race
import Matchmaker.Safety.ReaperFreshness
import Matchmaker.Safety.Registration
import Matchmaker.Safety.Statistics
import Matchmaker.Service.Answers
import Matchmaker.Service.Contention
import Matchmaker.Service.Occupancy
import Matchmaker.Service.Readings
import Matchmaker.Service.Stopping
import Matchmaker.Service.Waking
import Matchmaker.Settings.Loading
import Matchmaker.Simulator.Truth
