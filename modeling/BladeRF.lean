import BladeRF.Streaming.RxSequence
import BladeRF.Streaming.RxFifo
import BladeRF.Streaming.RxLocks
import BladeRF.Streaming.RxContiguity
import BladeRF.Streaming.EpochAdmission
import BladeRF.Streaming.TxFifo
import BladeRF.Nios.Attribution
import BladeRF.Nios.DirectWrite
import BladeRF.Nios.AtMostOnce
import BladeRF.Nios.RficResult
import BladeRF.Nios.RficRetry
import BladeRF.Nios.RficContinuation
import BladeRF.Fx3.Image
import BladeRF.Fx3.TxPause
import BladeRF.Flash.Identity
import BladeRF.Flash.ImageFile
import BladeRF.Flash.RoundTrip
import BladeRF.Sweep.Label
import BladeRF.Sweep.Accounting
import BladeRF.Usb.TransferAccounting
import BladeRF.Usb.RxTerminal
import BladeRF.Usb.TxOrder
import BladeRF.Usb.TxGeneration
import BladeRF.Board.TxLossCount
import BladeRF.Board.TxValidity
import BladeRF.Board.TxReopen
import BladeRF.Board.RfEventCursor
import BladeRF.Board.RxSourceEpoch
import BladeRF.Board.RxAsync
import BladeRF.Board.RxActivation
import BladeRF.Board.RxReservation
import BladeRF.Board.RficHost
import BladeRF.Board.SampleRate
import BladeRF.Fpga.GpifUnderrun
import BladeRF.Streaming.RxProvenance
import BladeRF.Fpga.Mailboxes
import BladeRF.Fpga.RxCertified
import BladeRF.Fpga.TxFaultFlush
import BladeRF.Fpga.DwellRecordFifo
import BladeRF.Streaming.TxFormats
import BladeRF.Streaming.PackedCodec
import BladeRF.Streaming.TxBurst
import BladeRF.Nios.VcocapSearch
import BladeRF.Nios.RetuneScheduled
import BladeRF.Nios.Retune2Codec
import BladeRF.Nios.Retune2Records
import BladeRF.Nios.RetuneCodec
import BladeRF.Streaming.Interleave
import BladeRF.Host.Csv
import BladeRF.Host.ConfigFile
import BladeRF.Driver.Si5338Readback
import BladeRF.Board.DcCalLoad
import BladeRF.Board.TxGainRestore
import BladeRF.Fpga.DwellTotals
