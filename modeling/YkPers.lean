import YkPers.Libusb
import YkPers.Proofs.Errno
import YkPers.Proofs.ArgsToConfig
import YkPers.Proofs.Bounds
import YkPers.Proofs.LegacyExport
import YkPers.Proofs.RoundTrip
import YkPers.Proofs.Update
import YkPers.Proofs.OpenKey
import YkPers.Proofs.Polling
import YkPers.Proofs.ExitCode
import YkPers.Proofs.Termination
import YkPers.Proofs.UidField
import YkPers.Proofs.NdefWrites
import YkPers.Proofs.Export
import YkPers.Proofs.YkpersVersion
import YkPers.Proofs.Ykchalresp
import YkPers.Proofs.ByteOrder
import YkPers.Proofs.UsbMode
import YkPers.Proofs.SerialId
import YkPers.Proofs.ImportText
import YkPers.Proofs.LegacyBuffer
import YkPers.Proofs.Ykinfo
import YkPers.Proofs.Usha
import YkPers.Proofs.PassphraseKey
import YkPers.Proofs.Sha32
import YkPers.Proofs.Libusb01
import YkPers.Proofs.ErrnoLocation
import YkPers.Proofs.Upgrade
import YkPers.Proofs.Corruption
import YkPers.Proofs.ToolRequests
import YkPers.Proofs.MainRequests
