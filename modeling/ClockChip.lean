import ClockChip.Calendar.Valid
import ClockChip.Machine.Action
import ClockChip.Main
import ClockChip.Program.Disk
import ClockChip.Proofs.Bus
import ClockChip.Proofs.Delay
import ClockChip.Proofs.Serving
import ClockChip.Proofs.Schedule
import ClockChip.Proofs.CivilTime
import ClockChip.Proofs.Counting
import ClockChip.Proofs.Checked
import ClockChip.Proofs.Alike
import ClockChip.Proofs.Stream
import ClockChip.Proofs.Restoring
import ClockChip.Proofs.Loading
import ClockChip.Proofs.Accepting
import ClockChip.Proofs.InPlace
import ClockChip.Proofs.Shifting
import ClockChip.Proofs.Reading
import ClockChip.Proofs.Frames
import ClockChip.Proofs.Groups
import ClockChip.Proofs.Writing
import ClockChip.Proofs.Arriving
import ClockChip.Proofs.Outstanding
import ClockChip.Proofs.Slicing
import ClockChip.Proofs.Agenda
import ClockChip.Proofs.Dispatch
import ClockChip.Proofs.Interrupted
import ClockChip.Proofs.Showing
import ClockChip.Proofs.Observation
import ClockChip.Proofs.Accesses
import ClockChip.Proofs.MonthEnds
import ClockChip.Proofs.Extended
import ClockChip.Proofs.Reported
import ClockChip.Proofs.Rearming
import ClockChip.Proofs.SentDates
import ClockChip.Proofs.HourModes
import ClockChip.Proofs.Bursts
import ClockChip.Proofs.Board
import ClockChip.Proofs.Lines
import ClockChip.Proofs.Restarting
import ClockChip.Proofs.Minutes
import ClockChip.Proofs.Asking
import ClockChip.Proofs.Drift
import ClockChip.Proofs.Sampling
import ClockChip.Proofs.Commands
import ClockChip.Proofs.Lenses
