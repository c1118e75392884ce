import Pi1MHz.Ftp.Commands
import Pi1MHz.Ftp.Correlation
import Pi1MHz.Ftp.Download
import Pi1MHz.Ftp.Lifecycle
import Pi1MHz.Ftp.Resolution
import Pi1MHz.Ftp.Segments
import Pi1MHz.Ftp.Sequencing
import Pi1MHz.Ftp.Target
import Pi1MHz.Ftp.Upload
import Pi1MHz.Http.Delivery
import Pi1MHz.Mailbox.Coalescing
import Pi1MHz.Mailbox.Latency
import Pi1MHz.Mailbox.Safety
import Pi1MHz.Media.Confinement
import Pi1MHz.Media.Disturbance
import Pi1MHz.Media.Limits
import Pi1MHz.Media.Line
import Pi1MHz.Media.Listing
import Pi1MHz.Media.Trimming
import Pi1MHz.Media.Verdicts
import Pi1MHz.Net.Agreement
import Pi1MHz.Net.Reuse
import Pi1MHz.Net.Sending
import Pi1MHz.Net.TargetSafety
import Pi1MHz.Rom.UefCleanup
import Pi1MHz.Rom.UefUpload
import Pi1MHz.Scsi.Transfer
import Pi1MHz.Sftp.Upload
import Pi1MHz.Ssh.Pinning
import Pi1MHz.Ssh.Secrets
import Pi1MHz.Ssh.Session
import Pi1MHz.Ssh.Wiping
import Pi1MHz.Tape.Exact
import Pi1MHz.Tape.Window
import Pi1MHz.Tube.Arithmetic
import Pi1MHz.Tube.Clock
import Pi1MHz.Tube.HostR3
import Pi1MHz.Tube.Interrupts
import Pi1MHz.Tube.Signals
import Pi1MHz.Uef.Delivery
import Pi1MHz.Uef.Legacy
import Pi1MHz.Vt100.Bounds
import Pi1MHz.Vt100.Parameters
import Pi1MHz.Wifi.Profile
