import CExamples.Common.BoundedBuffer.Deadlock
import CExamples.Common.BoundedQueue
import CExamples.Common.MessageQueue
import CExamples.Common.MonitorProgram.Sections
import CExamples.Common.PrefixCode
import CExamples.Common.RingBuffer
import CExamples.ProducerConsumer.Buffer
import CExamples.ProducerConsumer.BufferRefinement
import CExamples.ProducerConsumer.SimulationRefinement
import CExamples.ClientServer.ServerConnections
import CExamples.ClientServer.ClientAnswers
import CExamples.ClientServer.Blocks
import CExamples.ClientServer.ClientBlocks
import CExamples.ClientServer.ServerBlocks
import CExamples.ProducerConsumer.Main
import CExamples.ProducerConsumer.Delivery
import CExamples.ProducerConsumer.Deadlock
import CExamples.ProducerConsumer.Arithmetic
import CExamples.ClientServer.RoundTrip
import CExamples.ClientServer.TerminalReply
import CExamples.ClientServer.Transfer
import CExamples.ClientServer.Segmentation
import CExamples.ClientServer.ServedPaths
import CExamples.ClientServer.ServerWorker
import CExamples.ClientServer.Reassembly
import CExamples.ClientServer.FailedRequests
import CExamples.ClientServer.ErrorReplies
import CExamples.ClientServer.ErrorPropagation
import CExamples.ClientServer.CopiedBytes
import CExamples.ClientServer.WireFraming
import CExamples.ClientServer.Truncation
import CExamples.ClientServer.CheckedSends
import CExamples.ClientServer.TransferLimits
import CExamples.ClientServer.MessageSizes
