import Boutique.Server
import Boutique.Repositories
import Boutique.Claim
import Boutique.Bookings
import Boutique.Deposits
import Boutique.Jobs
import Boutique.Footprints
import Boutique.Discipline
import Boutique.Rules
import Boutique.Seats
import Boutique.Raises
import Boutique.Creates
import Boutique.NoOversell
import Boutique.Links
import Boutique.Lifecycle
import Boutique.Trail
import Boutique.Picker
import Boutique.OneHold
import Boutique.RunOut
import Boutique.Swept
import Boutique.Latest
import Boutique.Arrivals
import Boutique.Drain
import Boutique.Relink
import Boutique.Errands
import Boutique.Handover
import Boutique.Scrub
import Boutique.Shifts
import Boutique.Grid
import Boutique.Ceiling
import Boutique.Atelier
import Boutique.Stages
import Boutique.Deeds
import Boutique.Workroom
import Boutique.Otp
import Boutique.Attempts
import Boutique.Proofs
import Boutique.OneUse
import Boutique.Waitlist
import Boutique.Verbs
import Boutique.Cascade
import Boutique.Offers
import Boutique.Taken
import Boutique.Floor
import Boutique.Seating
import Boutique.Occupancy
import Boutique.Dispatches
import Boutique.Authority
import Boutique.Succession
import Boutique.Skips
import Boutique.TxnAlone
import Boutique.Board
import Boutique.Accounts
import Boutique.Captures
import Boutique.LastOwner
import Boutique.Photos
import Boutique.Uploads
import Boutique.Consent
import Boutique.Erasure
import Boutique.Orphans
import Boutique.Rota
import Boutique.Answers
import Boutique.Lasting
import Boutique.DayBoard
import Boutique.OneWeek
import Boutique.PollLoop
import Boutique.Accepted
import Boutique.Blocks
import Boutique.Counted
import Boutique.LastWriter
import Boutique.Passwords
import Boutique.Renames
import Boutique.Replayed
import Boutique.Resets
import Boutique.Attribution
import Boutique.AfterRelease
import Boutique.Alarms
import Boutique.Capacity
import Boutique.Correction
import Boutique.Dashboard
import Boutique.Fair
import Boutique.OnShift
import Boutique.Places
import Boutique.Reopening
import Boutique.SlotGrid
import Boutique.DeskSearch
import Boutique.FreeSeat
import Boutique.Gateway
import Boutique.Ics
import Boutique.LemonSqueezy
import Boutique.OneActive
import Boutique.RateLimit
import Boutique.Resumed
import Boutique.SavedAlone
import Boutique.WeekLock
import Boutique.Noticed
import Boutique.Between
import Boutique.Gallery
import Boutique.Showroom
import Boutique.SizeMatrix
import Boutique.Rentals
