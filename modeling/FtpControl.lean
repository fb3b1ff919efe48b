import FtpControl.Handler.Stock
import FtpControl.Main
import FtpControl.Proofs.LoginMachine
import FtpControl.Proofs.LoginSoundness
import FtpControl.Proofs.Dispatch
import FtpControl.Proofs.Arity
import FtpControl.Proofs.Secrecy
import FtpControl.Proofs.ListenerStep
import FtpControl.Proofs.Capacity
import FtpControl.Proofs.Replay
import FtpControl.Proofs.Admission
import FtpControl.Proofs.Accounting
import FtpControl.Proofs.Resumption
import FtpControl.Proofs.Isolation
import FtpControl.Proofs.Ending
import FtpControl.Proofs.Sending
import FtpControl.Proofs.Dialogue
import FtpControl.Proofs.SendFaults
import FtpControl.Proofs.Interruption
import FtpControl.Proofs.Granularity
import FtpControl.Proofs.Lateness
import FtpControl.Proofs.Release
import FtpControl.Proofs.WireLogins
import FtpControl.Proofs.Grammar
import FtpControl.Proofs.ReplyStream
import FtpControl.Proofs.Truncation
import FtpControl.Proofs.Registration
import FtpControl.Proofs.LogLines
import FtpControl.Proofs.Loading
import FtpControl.Proofs.StateHistory
import FtpControl.Proofs.AccountTable
import FtpControl.Proofs.PortNumbers
import FtpControl.Proofs.UserOverrides
import FtpControl.Proofs.LossyDecoding
import FtpControl.Proofs.TextLines
import FtpControl.Proofs.Passes
