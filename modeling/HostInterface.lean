import HostInterface.Interact.Prog
import HostInterface.Interact.Machine
import HostInterface.Buffer
import HostInterface.Register
import HostInterface.StopAndWait
import HostInterface.Utils
import HostInterface.Ftp.Object
import HostInterface.Ftp.Bitmap
import HostInterface.Ftp.Parse
import HostInterface.Ftp.Apply
import HostInterface.Ftp.Coverage
import HostInterface.Ftp.CrcLoop
import HostInterface.Ftp.Delivery
import HostInterface.Ftp.Tracking
import HostInterface.Ftp.ReadBack
import HostInterface.Ftp.Writes
import HostInterface.Ftp.Retry
import HostInterface.Ftp.Detect
import HostInterface.Ifc.Agreement
import HostInterface.Ifc.ConfigSet
import HostInterface.Ifc.Corruption
import HostInterface.Ifc.Evaluation
import HostInterface.Ifc.Faithful
import HostInterface.Ifc.Radio
import HostInterface.Ifc.Reads
import HostInterface.Ifc.Refusal
import HostInterface.Ifc.Retrieve
import HostInterface.Ifc.Wrappers
import HostInterface.Xmodem.Attempts
import HostInterface.Xmodem.Success
import HostInterface.Interact.Layer
import HostInterface.Pc.Transport
import HostInterface.Pc.Chunks
import HostInterface.Ifc.Settings
import HostInterface.Ifc.Tuning
import HostInterface.Ftp.Published
import HostInterface.Ftp.Total
import HostInterface.Ftp.Stall
import HostInterface.Xmodem.InStep
import HostInterface.Ftp.DownloadOverLine
import HostInterface.Ifc.Guarded
import HostInterface.Ifc.Commands
import HostInterface.Xmodem.Update
import HostInterface.Ifc.Reports
